import ProxyPen.Core.Target

/-!
# SOCKS5 Handshake

`authenticate` of `socks/handshake.rs`, a program on the stream to the proxy:
the offer of one method, the proxy's choice, and with credentials the request
of the password method. The messages are those of the SOCKS5 library. How it
writes a `VarVec` behind the length byte is an argument.

## Main definitions

* `AuthReq`, `PasswordAuthReq`: The two messages of the client.
* `authenticate`: The handshake.
-/

namespace ProxyPen

namespace Socks

open Protocol

variable {κ ε : Type}

/-- `SOCKS5_VERSION` -/
def socks5Version : UInt8 := 0x05

/-- `SOCKS5_AUTH_METHOD_NONE` -/
def authMethodNone : UInt8 := 0x00

/-- `SOCKS5_AUTH_METHOD_PASSWORD` -/
def authMethodPassword : UInt8 := 0x02

/-- `SOCKS5_REPLY_SUCCEEDED` -/
def replySucceeded : UInt8 := 0x00

structure AuthReq where
  version : UInt8
  methods : VarVec

def AuthReq.encode (writeVec : VarVec → Bytes) (r : AuthReq) : Bytes :=
  r.version :: writeVec r.methods

structure PasswordAuthReq where
  version : UInt8
  username : VarVec
  password : VarVec

def PasswordAuthReq.encode (writeVec : VarVec → Bytes) (r : PasswordAuthReq) : Bytes :=
  r.version :: (writeVec r.username ++ writeVec r.password)

/-- A string with its length, which is cast to a byte. -/
def VarVec.ofString (s : String) : VarVec :=
  { len := UInt8.ofNat (strBytes s).length, contents := strBytes s }

def authenticate (writeVec : VarVec → Bytes) (auth : Option ProxyAuth) : Proc κ ε Unit := do
  let method := if auth.isSome then authMethodPassword else authMethodNone
  let authReq : AuthReq :=
    { version := socks5Version, methods := { len := 1, contents := [method] } }
  Proc.write (authReq.encode writeVec)
  let repVersion ← readU8
  let repMethod ← readU8
  if repVersion ≠ socks5Version then Proc.fail "server version mismatch"
  else if repMethod ≠ method then
    Proc.fail ("auth method not supported (wanted " ++ hexByte method ++ ", got " ++
      hexByte repMethod ++ ")")
  else match auth with
    | none => return ()
    | some cred => do
        let pwReq : PasswordAuthReq :=
          { version := 0x01
            username := VarVec.ofString cred.username
            password := VarVec.ofString cred.password }
        Proc.write (pwReq.encode writeVec)
        -- The version of the reply is not looked at.
        let _ ← readU8
        let status ← readU8
        if status ≠ replySucceeded then Proc.fail "authentication failed"
        else return ()

end Socks

end ProxyPen
