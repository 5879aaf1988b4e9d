import ProxyPen.Theory.DnsWire

/-!
# The DNS Codec

What the resolver accepts, and that it understands the answers to its own
queries. The parser looks at the identifier, the response code, the two
counts, and the type and length of each record; everything else it passes
over.

## Main definitions

* `Header`: The twelve bytes in front of a message.
* `Reading`: A message up to the record an address is taken from.
* `Genuine`: A response to the very query that was sent.
* `asResponse`: A query turned into its response.

## Theorems

* `dns_parser_total`: The parser ends, stays in bounds and only moves forward.
* `query_response_agree`: The parser reads every response to a query.
* `accepted_reading`: What an accepted datagram looks like.
* `forged_accepted`: Accepted datagrams that answer no query.
-/

namespace ProxyPen

namespace Dns

open Outcome Cursor Protocol

/-! ## Header -/

structure Header where
  id : UInt16
  flags : UInt16
  qdcount : UInt16
  ancount : UInt16
  nscount : UInt16
  arcount : UInt16
  deriving DecidableEq, Repr

def Header.bytes (h : Header) : Bytes :=
  beBytes 2 h.id.toNat ++ (beBytes 2 h.flags.toNat ++ (beBytes 2 h.qdcount.toNat ++
    (beBytes 2 h.ancount.toNat ++ (beBytes 2 h.nscount.toNat ++ beBytes 2 h.arcount.toNat))))

theorem Header.bytes_length (h : Header) : h.bytes.length = 12 := by
  simp only [Header.bytes, List.length_append, beBytes_length]

/-- The first four words of a message, as the parser reads them. -/
theorem words_of_header {buf : Bytes} (h : Header) (hat : At buf 0 h.bytes) :
    u16At buf 0 = ok h.id ∧ u16At buf 2 = ok h.flags ∧ u16At buf 4 = ok h.qdcount ∧
      u16At buf 6 = ok h.ancount := by
  simp only [Header.bytes, at_append, beBytes_length, Nat.zero_add, Nat.reduceAdd] at hat
  rcases hat with ⟨hid, hflags, hqd, han, -, -⟩
  exact ⟨u16At_word_of_at _ hid, u16At_word_of_at _ hflags, u16At_word_of_at _ hqd,
    u16At_word_of_at _ han⟩

theorem header_of_length {buf : Bytes} (h : 12 ≤ buf.length) : ∃ hd : Header, At buf 0 hd.bytes := by
  rcases at_of_u16At buf 0 (by omega) with ⟨id, hid, -⟩
  rcases at_of_u16At buf 2 (by omega) with ⟨flags, hflags, -⟩
  rcases at_of_u16At buf 4 (by omega) with ⟨qd, hqd, -⟩
  rcases at_of_u16At buf 6 (by omega) with ⟨an, han, -⟩
  rcases at_of_u16At buf 8 (by omega) with ⟨ns, hns, -⟩
  rcases at_of_u16At buf 10 (by omega) with ⟨ar, har, -⟩
  refine ⟨⟨id, flags, qd, an, ns, ar⟩, ?_⟩
  simp only [Header.bytes, at_append, beBytes_length]
  exact ⟨hid, hflags, hqd, han, hns, har⟩

/-- Another identifier is refused, whatever follows. -/
theorem decode_wrong_id {buf : Bytes} (h : Header) (hat : At buf 0 h.bytes) (expectedId : UInt16)
    (hne : h.id ≠ expectedId) : ∃ e, decodeAResponse expectedId buf = err e := by
  have hlen := hat.le
  rw [h.bytes_length] at hlen
  rw [decodeAResponse, if_neg (by omega), (words_of_header h hat).1, ok_bind, if_pos hne]
  exact ⟨_, rfl⟩

/-- So is a message that announces no answer. -/
theorem decode_no_answers {buf : Bytes} (h : Header) (hat : At buf 0 h.bytes)
    (expectedId : UInt16) (han : h.ancount = 0) : ∃ e, decodeAResponse expectedId buf = err e := by
  have hlen := hat.le
  rw [h.bytes_length] at hlen
  by_cases hid : h.id = expectedId
  swap
  · exact decode_wrong_id h hat expectedId hid
  rcases words_of_header h hat with ⟨hreadId, hflags, hqd, hcount⟩
  rw [decodeAResponse, if_neg (by omega), hreadId, ok_bind, if_neg (fun hc => hc hid), hflags,
    ok_bind]
  by_cases hrcode : h.flags &&& 0x000F = 0
  · rw [if_neg (fun hc => hc hrcode), hqd, ok_bind, hcount, ok_bind, if_pos han]
    exact ⟨_, rfl⟩
  · rw [if_pos hrcode]
    exact ⟨_, rfl⟩

/-- Behind an acceptable header the two sections decide. -/
theorem decode_of_header {buf : Bytes} (h : Header) (hat : At buf 0 h.bytes)
    (hrcode : h.flags &&& 0x000F = 0) (han : h.ancount ≠ 0) :
    decodeAResponse h.id buf = (skipQuestions buf h.qdcount.toNat 12 >>= fun pos =>
      scanAnswers buf h.ancount.toNat pos) := by
  have hlen := hat.le
  rw [h.bytes_length] at hlen
  rcases words_of_header h hat with ⟨hid, hflags, hqd, hcount⟩
  rw [decodeAResponse, if_neg (by omega), hid, ok_bind, if_neg (fun hc => hc rfl), hflags, ok_bind,
    if_neg (fun hc => hc hrcode), hqd, ok_bind, hcount, ok_bind, if_neg han]

/-! ## What is accepted -/

/-- A message as far as the parser follows it: header, questions, and records
    up to the one an address is taken from. -/
structure Reading (limit : Nat) where
  header : Header
  questions : List (Question limit)
  before : List (Record limit)
  answer : Record limit
  questions_length : questions.length = header.qdcount.toNat
  before_lt : before.length < header.ancount.toNat

def Reading.bytes {limit : Nat} (m : Reading limit) : Bytes :=
  m.header.bytes ++ (m.questions.flatMap Question.bytes ++
    (m.before.flatMap Record.bytes ++ m.answer.bytes))

/-- The parser reports an error, or the datagram starts with a message whose
    first address it returns. -/
theorem decode_cases (id : UInt16) (buf : Bytes) :
    (∃ e, decodeAResponse id buf = err e) ∨
      ∃ (m : Reading 191) (ip : Ipv4Addr), At buf 0 m.bytes ∧ m.header.id = id ∧
        m.header.flags &&& 0x000F = 0 ∧ (∀ r ∈ m.before, r.address = none) ∧
        m.answer.address = some ip ∧ decodeAResponse id buf = ok ip := by
  by_cases hlen : buf.length < 12
  · exact Or.inl ⟨_, if_pos hlen⟩
  rcases header_of_length (Nat.le_of_not_lt hlen) with ⟨h, hat⟩
  by_cases hid : h.id = id
  swap
  · exact Or.inl (decode_wrong_id h hat id hid)
  subst hid
  by_cases han : h.ancount = 0
  · exact Or.inl (decode_no_answers h hat h.id han)
  by_cases hrcode : h.flags &&& 0x000F = 0
  swap
  · left
    rcases words_of_header h hat with ⟨hid, hflags, -, -⟩
    rw [decodeAResponse, if_neg hlen, hid, ok_bind, if_neg (fun hc => hc rfl), hflags, ok_bind,
      if_pos hrcode]
    exact ⟨_, rfl⟩
  rw [decode_of_header h hat hrcode han]
  rcases skipQuestions_cases buf h.qdcount.toNat 12 (Nat.le_of_not_lt hlen)
    with ⟨e, he⟩ | ⟨qs, hqs, hqat, hskip⟩
  · exact Or.inl ⟨e, by rw [he, err_bind]⟩
  rw [hskip, ok_bind]
  rcases scanAnswers_cases buf h.ancount.toNat _ hqat.le
    with herr | ⟨before, r, ip, hlt, hrat, hnone, hip, hok⟩
  · exact Or.inl herr
  -- Header, questions and records follow each other in the buffer.
  refine Or.inr ⟨⟨h, qs, before, r, hqs, hlt⟩, ip, ?_, rfl, hrcode, hnone, hip, hok⟩
  rw [Reading.bytes, at_append, at_append, h.bytes_length]
  exact ⟨hat, hqat, hrat⟩

/-! ## Bounds -/

/-- Where a name ends. -/
theorem skipName_bounds (buf : Bytes) (pos : Nat) :
    skipName buf pos ≠ panic ∧ ∀ p, skipName buf pos = ok p → pos < p ∧ p ≤ buf.length := by
  rcases skipName_cases buf pos with ⟨e, he⟩ | ⟨n, hn, hskip⟩
  · rw [he]
    exact ⟨by simp only [ne_eq, reduceCtorEq, not_false_eq_true],
      fun p h => absurd h (err_ne_ok e p)⟩
  · rw [hskip]
    refine ⟨by simp only [ne_eq, reduceCtorEq, not_false_eq_true], ?_⟩
    intro p h
    rw [Outcome.ok.injEq] at h
    have hin := hn.le
    have hpos := n.bytes_length_pos
    omega

/-- Where a question ends. -/
theorem skipQuestion_bounds (buf : Bytes) (pos p : Nat) (h : skipQuestion buf pos = ok p) :
    pos < p ∧ p ≤ buf.length := by
  rcases skipQuestion_cases buf pos with ⟨e, he⟩ | ⟨q, hq, hskip⟩
  · exact absurd (he.symm.trans h) (err_ne_ok e p)
  · rw [hskip, Outcome.ok.injEq] at h
    have hin := hq.le
    have hlen := q.bytes_length
    omega

/-- Where a record without an address ends. -/
theorem readAnswer_bounds (buf : Bytes) (pos p : Nat) (h : readAnswer buf pos = ok (.again p)) :
    pos < p ∧ p ≤ buf.length := by
  rcases readAnswer_cases buf pos with ⟨e, he⟩ | ⟨r, hr, hread⟩
  · exact absurd (he.symm.trans h) (err_ne_ok e _)
  · rw [hread, Outcome.ok.injEq, Record.flow] at h
    have hin := hr.le
    have hlen := r.bytes_length
    rcases haddr : r.address with _ | ip
    · rw [haddr] at h
      simp only [Round.again.injEq] at h
      omega
    · rw [haddr] at h
      exact absurd h (by simp only [reduceCtorEq, not_false_eq_true])

theorem decode_ne_panic (buf : Bytes) (expectedId : UInt16) :
    decodeAResponse expectedId buf ≠ panic := by
  rcases decode_cases expectedId buf with ⟨e, he⟩ | ⟨m, ip, -, -, -, -, -, hok⟩
  · rw [he]
    simp only [ne_eq, reduceCtorEq, not_false_eq_true]
  · rw [hok]
    simp only [ne_eq, reduceCtorEq, not_false_eq_true]

/-- The parser ends without an access out of range, for every buffer, position
    and identifier. A name, a question and a record end behind their start
    and inside the buffer. -/
theorem dns_parser_total (buf : Bytes) :
    (∀ pos, loopFor (skipNameRound buf) (buf.length - pos + 1) pos = some (skipName buf pos) ∧
      skipName buf pos ≠ panic ∧
      ∀ p, skipName buf pos = ok p → pos < p ∧ p ≤ buf.length) ∧
    (∀ pos p, skipQuestion buf pos = ok p → pos < p ∧ p ≤ buf.length) ∧
    (∀ pos p, readAnswer buf pos = ok (.again p) → pos < p ∧ p ≤ buf.length) ∧
    ∀ expectedId, decodeAResponse expectedId buf ≠ panic := by
  refine ⟨?_, ?_, ?_, ?_⟩
  · intro pos
    exact ⟨loopFor_skipNameRound buf pos, skipName_bounds buf pos⟩
  · intro pos p h
    exact skipQuestion_bounds buf pos p h
  · intro pos p h
    exact readAnswer_bounds buf pos p h
  · intro expectedId
    exact decode_ne_panic buf expectedId

/-- A pointer to itself is passed over like any other. -/
theorem dns_parser_total_pointer :
    skipName [0xC0, 0] 0 = ok 2 ∧ 0 < 2 ∧ 2 ≤ ([0xC0, 0] : Bytes).length :=
  ⟨by decide, ((dns_parser_total [0xC0, 0]).1 0).2.2 2 (by decide)⟩

/-! ## Queries and their responses -/

theorem strBytes_length_pos {s : String} (h : ¬ s.isEmpty = true) : 0 < (strBytes s).length := by
  rcases hs : s.toList with _ | ⟨c, cs⟩
  · exact absurd (String.isEmpty_iff.mpr (String.toList_eq_nil_iff.mp hs)) h
  · have hc := Char.utf8Size_pos c
    rw [strBytes, hs, List.flatMap_cons, List.length_append, String.length_utf8EncodeChar]
    omega

/-- The labels that enter a query: those that are not empty. -/
def keptLabels (labels : List String) : List Bytes :=
  (labels.filter (fun l => !l.isEmpty)).map strBytes

theorem keptLabels_cons_empty {label : String} (labels : List String)
    (h : label.isEmpty = true) : keptLabels (label :: labels) = keptLabels labels := by
  rw [keptLabels, List.filter_cons_of_neg (by simp only [h, Bool.not_true, Bool.false_eq_true,
    not_false_eq_true]), keptLabels]

theorem keptLabels_cons {label : String} (labels : List String) (h : ¬ label.isEmpty = true) :
    keptLabels (label :: labels) = strBytes label :: keptLabels labels := by
  rw [keptLabels, List.filter_cons_of_pos (by simp only [h, Bool.not_false]), List.map_cons,
    keptLabels]

theorem keptLabels_length_pos {labels : List String} : ∀ l ∈ keptLabels labels, 0 < l.length := by
  intro l hl
  rcases List.mem_map.mp hl with ⟨label, hmem, rfl⟩
  have hkept := (List.mem_filter.mp hmem).2
  apply strBytes_length_pos
  intro hempty
  rw [hempty] at hkept
  exact absurd hkept (by decide)

/-- Pushing labels succeeds where none is too long, with the labels that are
    not empty. -/
theorem pushLabels_ok_iff {buf out : Bytes} {labels : List String} :
    pushLabels buf labels = ok out ↔
      (∀ l ∈ labels, (strBytes l).length ≤ maxLabelLen) ∧
        out = buf ++ (keptLabels labels).flatMap labelBytes := by
  induction labels generalizing buf with
  | nil =>
      rw [pushLabels, Outcome.ok.injEq, keptLabels, List.filter_nil, List.map_nil,
        List.flatMap_nil, List.append_nil]
      exact ⟨fun h => ⟨fun l hl => absurd hl List.not_mem_nil, h.symm⟩, fun h => h.2.symm⟩
  | cons label labels ih =>
      rw [pushLabels, List.forall_mem_cons]
      by_cases hempty : label.isEmpty = true
      · have hzero : (strBytes label).length ≤ maxLabelLen := by
          rw [String.isEmpty_iff.mp hempty]
          decide
        rw [if_pos hempty, ih, keptLabels_cons_empty labels hempty]
        exact ⟨fun h => ⟨⟨hzero, h.1⟩, h.2⟩, fun h => ⟨h.1.2, h.2⟩⟩
      rw [if_neg hempty]
      by_cases hlong : (strBytes label).length > maxLabelLen
      · rw [if_pos hlong]
        constructor
        · intro h
          exact absurd h (by simp only [invalid, reduceCtorEq, not_false_eq_true])
        · intro h
          exact absurd h.1.1 (Nat.not_le_of_lt hlong)
      · rw [if_neg hlong, ih, keptLabels_cons labels hempty, List.flatMap_cons, labelBytes,
          List.append_assoc]
        exact ⟨fun h => ⟨⟨Nat.le_of_not_lt hlong, h.1⟩, h.2⟩, fun h => ⟨h.1.2, h.2⟩⟩

theorem keptLabels_length_le {labels : List String}
    (h : ∀ l ∈ labels, (strBytes l).length ≤ maxLabelLen) :
    ∀ l ∈ keptLabels labels, l.length ≤ 63 := by
  intro l hl
  rcases List.mem_map.mp hl with ⟨label, hmem, rfl⟩
  exact h label (List.mem_filter.mp hmem).1

/-- A query with some list of labels in its question. -/
def queryOf (id : UInt16) (labels : List Bytes) : Bytes :=
  queryHeader id ++ labels.flatMap labelBytes ++ [0] ++ beBytes 2 1 ++ beBytes 2 1

/-- What `encode_query` produces, and when. -/
theorem encodeQuery_ok_iff {id : UInt16} {hostname : String} {query : Bytes} :
    encodeQuery id hostname = ok query ↔
      (∀ l ∈ splitDots hostname, (strBytes l).length ≤ maxLabelLen) ∧
        query = queryOf id (keptLabels (splitDots hostname)) := by
  unfold encodeQuery
  rw [bind_eq_ok]
  constructor
  · intro h
    rcases h with ⟨buf, hpush, hquery⟩
    rcases pushLabels_ok_iff.mp hpush with ⟨hlen, rfl⟩
    exact ⟨hlen, (Outcome.ok.inj hquery).symm⟩
  · intro h
    exact ⟨_, pushLabels_ok_iff.mpr ⟨h.1, rfl⟩, by rw [h.2, queryOf]⟩

/-- A query is a header and one question. -/
theorem encodeQuery_ok {id : UInt16} {hostname : String} {query : Bytes}
    (h : encodeQuery id hostname = ok query) :
    ∃ q : Question 63, query = (⟨id, 0x0100, 1, 0, 0, 0⟩ : Header).bytes ++ q.bytes := by
  rcases encodeQuery_ok_iff.mp h with ⟨hlen, rfl⟩
  refine ⟨⟨⟨keptLabels (splitDots hostname), ?_, .root⟩, 1, 1⟩, ?_⟩
  · intro l hl
    exact ⟨keptLabels_length_pos l hl, keptLabels_length_le hlen l hl⟩
  · simp only [queryOf, queryHeader, Header.bytes, Question.bytes, Name.bytes, NameEnd.bytes,
      List.append_assoc]
    rfl

/-- The flags of a response without an error: QR is set and RCODE is zero. -/
structure ResponseFlags where
  word : UInt16
  qr : word &&& 0x8000 ≠ 0
  rcode : word &&& 0x000F = 0

/-- A query turned into its response: new flags, a count of answers, and the
    answers behind the question. -/
def asResponse (query : Bytes) (flags : ResponseFlags) (answers : List (Record 63)) : Bytes :=
  query.take 2 ++ beBytes 2 flags.word.toNat ++ (query.drop 4).take 2 ++
    beBytes 2 answers.length ++ query.drop 8 ++ answers.flatMap Record.bytes

theorem asResponse_bytes (id : UInt16) (q : Question 63) (flags : ResponseFlags)
    (answers : List (Record 63)) (hlen : answers.length ≤ 65535) :
    asResponse ((⟨id, 0x0100, 1, 0, 0, 0⟩ : Header).bytes ++ q.bytes) flags answers
      = (⟨id, flags.word, 1, UInt16.ofNat answers.length, 0, 0⟩ : Header).bytes ++
        (q.bytes ++ answers.flatMap Record.bytes) := by
  have hcount : (UInt16.ofNat answers.length).toNat = answers.length :=
    UInt16.toNat_ofNat_of_lt' (show answers.length < 65536 by omega)
  -- Every field in front of the question has its two bytes.
  simp only [asResponse, Header.bytes, hcount, beBytes, List.cons_append, List.nil_append,
    List.take_succ_cons, List.take_zero, List.drop_succ_cons, List.drop_zero]

/-- The parser understands every response to a query. It passes over exactly
    the question, returns the first address among the answers or an error
    where there is none, and refuses every other identifier. -/
theorem query_response_agree (id : UInt16) (hostname : String) (query : Bytes)
    (hquery : encodeQuery id hostname = ok query) (flags : ResponseFlags)
    (answers : List (Record 63)) (hlen : answers.length ≤ 65535) :
    (u16At (asResponse query flags answers) 4 = ok 1 ∧
      skipQuestions (asResponse query flags answers) 1 12 = ok query.length) ∧
    (∀ ip, answers.findSome? Record.address = some ip →
      decodeAResponse id (asResponse query flags answers) = ok ip) ∧
    (answers.findSome? Record.address = none →
      ∃ e, decodeAResponse id (asResponse query flags answers) = err e) ∧
    ∀ expectedId, expectedId ≠ id →
      ∃ e, decodeAResponse expectedId (asResponse query flags answers) = err e := by
  rcases encodeQuery_ok hquery with ⟨q, rfl⟩
  rw [asResponse_bytes id q flags answers hlen]
  have hcount : (UInt16.ofNat answers.length).toNat = answers.length :=
    UInt16.toNat_ofNat_of_lt' (show answers.length < 65536 by omega)
  -- Header, question and answers follow each other.
  have hat := at_zero ((⟨id, flags.word, 1, UInt16.ofNat answers.length, 0, 0⟩ : Header).bytes ++
    (q.bytes ++ answers.flatMap Record.bytes)) []
  rw [List.append_nil, at_append, at_append, Header.bytes_length] at hat
  rcases hat with ⟨hheader, hquestion, hanswers⟩
  have hskip := skipQuestions_of_at (by omega) [q]
    (by rw [List.flatMap_singleton]; exact hquestion)
  rw [List.flatMap_singleton, List.length_singleton] at hskip
  refine ⟨⟨(words_of_header _ hheader).2.2.1, ?_⟩, ?_, ?_, ?_⟩
  · rw [List.length_append, Header.bytes_length]
    exact hskip
  · intro ip hip
    have hne : UInt16.ofNat answers.length ≠ 0 := by
      intro hc
      rw [hc, UInt16.toNat_zero] at hcount
      rw [List.length_eq_zero_iff.mp hcount.symm] at hip
      exact absurd hip (by simp only [List.findSome?_nil, reduceCtorEq, not_false_eq_true])
    rw [decode_of_header _ hheader flags.rcode hne]
    show (skipQuestions _ 1 12 >>= _) = _
    rw [hskip, ok_bind, hcount, scanAnswers_of_at (by omega) answers hanswers, hip]
  · intro hnone
    by_cases hzero : UInt16.ofNat answers.length = 0
    · exact decode_no_answers _ hheader id hzero
    · rw [decode_of_header _ hheader flags.rcode hzero]
      show ∃ e, (skipQuestions _ 1 12 >>= _) = _
      rw [hskip, ok_bind, hcount, scanAnswers_of_at (by omega) answers hanswers, hnone]
      exact ⟨_, rfl⟩
  · intro expectedId hne
    exact decode_wrong_id _ hheader expectedId hne.symm

/-- The question `encode_query` asks about the host `ab`. -/
def questionAb : Bytes := [2, 97, 98, 0, 0, 1, 0, 1]

theorem encodeQuery_ab : encodeQuery 7 "ab" = ok (queryHeader 7 ++ questionAb) := by decide

/-- An alias, and the address it leads to. -/
def aliasAnswers : List (Record 63) :=
  [⟨⟨[[97, 98]], by decide, .root⟩, 5, 1, 60, [1, 99, 0xC0, 12], by decide⟩,
    ⟨⟨[[99]], by decide, .pointer 12⟩, 1, 1, 60, [93, 184, 216, 34], by decide⟩]

theorem query_response_agree_alias :
    decodeAResponse 7 (asResponse (queryHeader 7 ++ questionAb) ⟨0x8180, by decide, by decide⟩
      aliasAnswers) = ok ⟨[93, 184, 216, 34], rfl⟩ :=
  (query_response_agree 7 "ab" _ encodeQuery_ab _ aliasAnswers (by decide)).2.1 _ rfl

/-! ## Genuine responses -/

/-- The datagram starts with a message of that identifier without an error
    code, and the address is the RDATA of its first record with TYPE `1` and
    four bytes of RDATA. -/
def Accepted (id : UInt16) (b : Bytes) (ip : Ipv4Addr) : Prop :=
  ∃ m : Reading 191, At b 0 m.bytes ∧ m.header.id = id ∧ m.header.flags &&& 0x000F = 0 ∧
    (∀ r ∈ m.before, r.address = none) ∧ m.answer.address = some ip

/-- What an accepted datagram looks like, and that an answer of the resolver
    is one the parser found in the received datagram. -/
theorem accepted_reading (id : UInt16) (ip : Ipv4Addr) :
    (∀ b, decodeAResponse id b = ok ip → Accepted id b ip) ∧
    ∀ socket server hostname datagram,
      resolveA socket server id hostname (some datagram) = ok ip →
        ∃ b, socket.recv 1500 datagram = ok b ∧ decodeAResponse id b = ok ip := by
  constructor
  · intro b h
    rcases decode_cases id b with ⟨e, he⟩ | ⟨m, ip', hat, hid, hrcode, hbefore, hip, hok⟩
    · rw [he] at h
      exact absurd h (by simp only [reduceCtorEq, not_false_eq_true])
    · rw [hok, Outcome.ok.injEq] at h
      exact ⟨m, hat, hid, hrcode, hbefore, by rw [hip, h]⟩
  · intro socket server hostname datagram h
    unfold resolveA at h
    by_cases hlong : (strBytes hostname).length > maxNameLen
    · rw [if_pos hlong] at h
      exact absurd h (by simp only [invalid, reduceCtorEq, not_false_eq_true])
    rw [if_neg hlong] at h
    rcases bind_eq_ok.mp h with ⟨query, -, hsend⟩
    rcases bind_eq_ok.mp hsend with ⟨sent, -, hrecv⟩
    rcases bind_eq_ok.mp hrecv with ⟨b, hb, hdecode⟩
    refine ⟨b, ?_, hdecode⟩
    -- The conversion of errors leaves a received datagram alone.
    rcases hcase : socket.recv 1500 datagram with b' | e | _
    · rw [hcase] at hb
      exact congrArg Outcome.ok (Outcome.ok.inj hb)
    · rw [hcase] at hb
      exact absurd hb (by simp only [io, reduceCtorEq, not_false_eq_true])
    · rw [hcase] at hb
      exact absurd hb (by simp only [io, reduceCtorEq, not_false_eq_true])

/-- A response to the query of a hostname: QR is set, the question is the one
    that was sent, every label passed over is a legal one, and the address
    belongs to a record of TYPE A and CLASS IN. -/
def Genuine (id : UInt16) (hostname : String) (b : Bytes) (ip : Ipv4Addr) : Prop :=
  ∃ (m : Reading 63) (query : Bytes), At b 0 m.bytes ∧ m.header.id = id ∧
    m.header.flags &&& 0x8000 ≠ 0 ∧ m.header.flags &&& 0x000F = 0 ∧
    encodeQuery id hostname = ok query ∧
    m.questions.flatMap Question.bytes = query.drop 12 ∧
    m.answer.rtype = 1 ∧ m.answer.rclass = 1 ∧ m.answer.rdata = ip.toList

/-- A reply with one question and one address record. -/
def reply (flags : UInt8) (question owner : Bytes) (rclass : UInt8) : Bytes :=
  [0, 7, flags, 0x80, 0, 1, 0, 1, 0, 0, 0, 0] ++ question ++ owner ++
    [0, 1, 0, rclass, 0, 0, 0, 60, 0, 4, 93, 184, 216, 34]

theorem accepted_reading_reply :
    Accepted 7 (reply 0x81 questionAb [0xC0, 12] 1) ⟨[93, 184, 216, 34], rfl⟩ :=
  (accepted_reading 7 _).1 _ (by decide)

/-- The only answer of a genuine reply with one answer stands behind the question. -/
theorem Genuine.answer {b : Bytes} {ip : Ipv4Addr} (h : Genuine 7 "ab" b ip)
    (hcount : u16At b 6 = ok 1) :
    At b 12 questionAb ∧ ∃ r : Record 63, At b 20 r.bytes ∧ r.rclass = 1 := by
  rcases h with ⟨m, query, hat, -, -, -, hquery, hquestion, -, hclass, -⟩
  rw [encodeQuery_ab, Outcome.ok.injEq] at hquery
  rw [Reading.bytes, at_append, at_append, Header.bytes_length, hquestion, ← hquery] at hat
  rcases hat with ⟨hheader, hquestionAt, hanswers⟩
  -- Fewer than one record stands in front of the answer.
  have hone : m.header.ancount = 1 := by
    have hword := (words_of_header _ hheader).2.2.2
    rw [hcount, Outcome.ok.injEq] at hword
    exact hword.symm
  have hbefore : m.before = [] := by
    have hlt := m.before_lt
    rw [hone] at hlt
    exact List.length_eq_zero_iff.mp (Nat.lt_one_iff.mp hlt)
  rw [hbefore, List.flatMap_nil, List.nil_append] at hanswers
  exact ⟨hquestionAt, m.answer, hanswers, hclass⟩

/-- The length byte of a first label is legal, or the name has no label. -/
theorem Name.head_byte {limit : Nat} (hlimit : limit ≤ 191) (n : Name limit) :
    ∃ c rest, n.bytes = c :: rest ∧ (c.toNat ≤ limit ∨ 192 ≤ c.toNat) := by
  rcases n with ⟨labels, hlabels, ending⟩
  rcases labels with _ | ⟨l, ls⟩
  · rcases ending with _ | offset
    · exact ⟨0, [], rfl, Or.inl (Nat.zero_le _)⟩
    · refine ⟨_, _, rfl, Or.inr ?_⟩
      have hoff := offset.isLt
      rw [UInt8.toNat_ofNat', pow_one]
      omega
  · have hl := hlabels l List.mem_cons_self
    refine ⟨_, _, rfl, Or.inl ?_⟩
    rw [UInt8.toNat_ofNat_of_lt' (show l.length < 256 by omega)]
    exact hl.2

/-- Four replies that differ in one respect each from a genuine one, all of
    them accepted: QR is clear, the question is about another host, the class
    is not IN, and the owner has a label of the reserved type `01`. -/
theorem forged_accepted :
    Genuine 7 "ab" (reply 0x81 questionAb [0xC0, 12] 1) ⟨[93, 184, 216, 34], rfl⟩ ∧
    (decodeAResponse 7 (reply 0x01 questionAb [0xC0, 12] 1) = ok ⟨[93, 184, 216, 34], rfl⟩ ∧
      ¬ Genuine 7 "ab" (reply 0x01 questionAb [0xC0, 12] 1) ⟨[93, 184, 216, 34], rfl⟩) ∧
    (decodeAResponse 7 (reply 0x81 [2, 99, 100, 0, 0, 1, 0, 1] [0xC0, 12] 1)
        = ok ⟨[93, 184, 216, 34], rfl⟩ ∧
      ¬ Genuine 7 "ab" (reply 0x81 [2, 99, 100, 0, 0, 1, 0, 1] [0xC0, 12] 1)
        ⟨[93, 184, 216, 34], rfl⟩) ∧
    (decodeAResponse 7 (reply 0x81 questionAb [0xC0, 12] 3) = ok ⟨[93, 184, 216, 34], rfl⟩ ∧
      ¬ Genuine 7 "ab" (reply 0x81 questionAb [0xC0, 12] 3) ⟨[93, 184, 216, 34], rfl⟩) ∧
    (decodeAResponse 7 (reply 0x81 questionAb (65 :: List.replicate 65 97 ++ [0]) 1)
        = ok ⟨[93, 184, 216, 34], rfl⟩ ∧
      ¬ Genuine 7 "ab" (reply 0x81 questionAb (65 :: List.replicate 65 97 ++ [0]) 1)
        ⟨[93, 184, 216, 34], rfl⟩) := by
  refine ⟨?_, ⟨by decide, ?_⟩, ⟨by decide, ?_⟩, ⟨by decide, ?_⟩, ⟨by decide, ?_⟩⟩
  · -- The grammar of a genuine reply, written out.
    refine ⟨⟨⟨7, 0x8180, 1, 1, 0, 0⟩, [⟨⟨[[97, 98]], by decide, .root⟩, 1, 1⟩], [],
      ⟨⟨[], by decide, .pointer 12⟩, 1, 1, 60, [93, 184, 216, 34], by decide⟩, rfl, by decide⟩,
      queryHeader 7 ++ questionAb, ⟨[], [], by decide, rfl⟩, by decide, by decide, by decide,
      by decide, by decide, by decide, by decide, by decide⟩
  · intro h
    rcases h with ⟨m, query, hat, -, hqr, -⟩
    rw [Reading.bytes, at_append] at hat
    have hflags := (words_of_header _ hat.1).2.1
    have hread : u16At (reply 0x01 questionAb [0xC0, 12] 1) 2 = ok 0x0180 := by decide
    rw [hread, Outcome.ok.injEq] at hflags
    exact hqr (by rw [← hflags]; decide)
  · intro h
    have hquestion := (h.answer (by decide)).1
    have hsecond := (at_append _ [2] [97, 98, 0, 0, 1, 0, 1] 12).mp hquestion
    have hread := @index_of_at _ ProxyPenError _ _ _ _ hsecond.2
    exact absurd hread (by decide)
  · intro h
    rcases (h.answer (by decide)).2 with ⟨r, hr, hclass⟩
    simp only [Record.bytes, at_append, beBytes_length] at hr
    -- The owner is the pointer, so the class stands four bytes into the record.
    have hskip := skipName_of_at (by omega) r.owner hr.1
    have hreadName : skipName (reply 0x81 questionAb [0xC0, 12] 3) 20 = ok 22 := by decide
    rw [hreadName, Outcome.ok.injEq] at hskip
    rw [← hskip] at hr
    have hread := u16At_word_of_at r.rclass hr.2.2.1
    rw [hclass] at hread
    exact absurd hread (by decide)
  · intro h
    rcases (h.answer (by decide)).2 with ⟨r, hr, -⟩
    rw [Record.bytes, at_append] at hr
    rcases Name.head_byte (by omega) r.owner with ⟨c, rest, hbytes, hc⟩
    rw [hbytes] at hr
    -- A length byte of `65` is neither legal nor a pointer.
    have hread := @index_of_at _ ProxyPenError _ _ _ _ hr.1
    have hbyte : (index (reply 0x81 questionAb (65 :: List.replicate 65 97 ++ [0]) 1) 20 :
        Outcome ProxyPenError UInt8) = ok 65 := by decide
    rw [hbyte, Outcome.ok.injEq] at hread
    rw [← hread] at hc
    exact absurd hc (by decide)

end Dns

end ProxyPen
