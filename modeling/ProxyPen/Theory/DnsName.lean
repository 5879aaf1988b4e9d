import ProxyPen.Theory.Dns

/-!
# Names in Queries

Which name a query asks about. `encode_query` passes over empty labels
wherever they stand, and `resolve_a` measures the text of a hostname while the
limit on a name is about its wire form, which is up to two octets longer. So a
query can ask about another name, or about one no server has to accept.

## Main definitions

* `bareChars`: A hostname without its trailing dot.
* `Asks`: A query carries a legal name with the labels of a hostname.
* `Expressible`: Some legal name has the labels of a hostname.
* `NameKept`: Queries ask for the hostname, and what has no name is refused.

## Theorems

* `labels_inj`: A name has one list of labels.
* `kept_wire_length`: The octets of a name, from the text of its hostname.
* `nameKept_iff`: The hostnames that are asked about or refused.
-/

namespace ProxyPen

namespace Dns

open Outcome Protocol

/-! ## Labels of a name -/

theorem labelBytes_eq_cons (label : Bytes) :
    labelBytes label = UInt8.ofNat label.length :: label := rfl

theorem ofNat_length_ne_zero {l : Bytes} (h : 0 < l.length ∧ l.length ≤ 63) :
    UInt8.ofNat l.length ≠ 0 := by
  intro hzero
  have hnat := congrArg UInt8.toNat hzero
  rw [UInt8.toNat_ofNat', UInt8.toNat_zero] at hnat
  omega

/-- A name has one list of labels: the length octets tell where each ends. -/
theorem labels_inj {ls ms : List Bytes} {rest rest' : Bytes}
    (hls : ∀ l ∈ ls, 0 < l.length ∧ l.length ≤ 63)
    (hms : ∀ l ∈ ms, 0 < l.length ∧ l.length ≤ 63)
    (h : ls.flatMap labelBytes ++ 0 :: rest = ms.flatMap labelBytes ++ 0 :: rest') : ls = ms := by
  induction ls generalizing ms with
  | nil =>
      rcases ms with _ | ⟨m, ms⟩
      · rfl
      · have hm := hms m List.mem_cons_self
        rw [List.flatMap_nil, List.nil_append, List.flatMap_cons, labelBytes_eq_cons,
          List.cons_append, List.cons_append, List.cons.injEq] at h
        exact absurd h.1.symm (ofNat_length_ne_zero hm)
  | cons l ls ih =>
      have hl := hls l List.mem_cons_self
      rcases ms with _ | ⟨m, ms⟩
      · rw [List.flatMap_nil, List.nil_append, List.flatMap_cons, labelBytes_eq_cons,
          List.cons_append, List.cons_append, List.cons.injEq] at h
        exact absurd h.1 (ofNat_length_ne_zero hl)
      · have hm := hms m List.mem_cons_self
        rw [List.flatMap_cons, List.flatMap_cons, labelBytes_eq_cons, labelBytes_eq_cons,
          List.append_assoc, List.append_assoc, List.cons_append, List.cons_append,
          List.cons.injEq] at h
        -- Equal length octets are equal lengths below 64.
        have hlen : l.length = m.length := by
          have hnat := congrArg UInt8.toNat h.1
          rw [UInt8.toNat_ofNat', UInt8.toNat_ofNat'] at hnat
          omega
        rcases List.append_inj h.2 hlen with ⟨rfl, hrest⟩
        rw [ih (fun x hx => hls x (List.mem_cons_of_mem _ hx))
          (fun x hx => hms x (List.mem_cons_of_mem _ hx)) hrest]

/-! ## Text and wire -/

/-- The octets of a text. -/
def octets (cs : List Char) : Nat := (cs.flatMap String.utf8EncodeChar).length

/-- A hostname without its trailing dot. -/
def bareChars (hostname : String) : List Char :=
  if hostname.toList.getLast? = some '.' then hostname.toList.dropLast else hostname.toList

theorem octets_append (xs ys : List Char) : octets (xs ++ ys) = octets xs + octets ys := by
  rw [octets, List.flatMap_append, List.length_append, octets, octets]

theorem octets_intercalate (ps : List (List Char)) (h : ps ≠ []) :
    (ps.map (fun p => octets p + 1)).sum = octets (['.'].intercalate ps) + 1 := by
  induction ps with
  | nil => exact absurd rfl h
  | cons p ps ih =>
      rcases ps with _ | ⟨q, qs⟩
      · rw [List.intercalate_singleton, List.map_singleton, List.sum_singleton]
      · rw [List.intercalate_cons_cons, List.map_cons, List.sum_cons, ih (List.cons_ne_nil q qs),
          octets_append, octets_append]
        have hdot : octets ['.'] = 1 := by decide
        omega

/-- Every label takes its octets and one more, which for all but one of them
    is the dot in the text. -/
theorem labels_octets (hostname : String) :
    ((splitDots hostname).map (fun l => (strBytes l).length + 1)).sum
      = (strBytes hostname).length + 1 := by
  have hne := List.splitOn_ne_nil '.' hostname.toList
  have hsum := octets_intercalate _ hne
  rw [List.intercalate_splitOn] at hsum
  rw [splitDots, List.map_map, strBytes, ← octets, ← hsum]
  congr 1
  apply List.map_congr_left
  intro p _
  rw [Function.comp_apply, strBytes, String.toList_ofList, octets]

theorem splitDots_ne_nil (hostname : String) : splitDots hostname ≠ [] := by
  unfold splitDots
  exact fun h => List.splitOn_ne_nil '.' hostname.toList (List.map_eq_nil_iff.mp h)

/-- A text whose last piece is empty is empty or ends in the separator. -/
theorem intercalate_concat_nil (init : List (List Char)) :
    ['.'].intercalate (init ++ [[]]) = [] ∨
      (['.'].intercalate (init ++ [[]])).getLast? = some '.' := by
  induction init with
  | nil =>
      left
      rw [List.nil_append, List.intercalate_singleton]
  | cons p ps ih =>
      right
      rw [List.cons_append, List.intercalate_cons_of_ne_nil (by simp only [ne_eq,
        List.append_eq_nil_iff, List.cons_ne_self, and_false, not_false_eq_true])]
      rcases ih with hnil | hdot
      · rw [hnil, List.append_nil, List.getLast?_concat]
      · rw [List.getLast?_append, hdot, Option.some_or]

/-- The last label is empty behind a trailing dot, and in the empty text. -/
theorem getLast_splitDots (hostname : String) :
    (splitDots hostname).getLast (splitDots_ne_nil hostname) = "" ↔
      hostname = "" ∨ hostname.toList.getLast? = some '.' := by
  have hne := List.splitOn_ne_nil '.' hostname.toList
  have hlast : (splitDots hostname).getLast (splitDots_ne_nil hostname) = "" ↔
      (hostname.toList.splitOn '.').getLast hne = [] := by
    simp only [splitDots, List.getLast_map, String.ofList_eq_empty_iff]
  rw [hlast, ← String.toList_eq_nil_iff]
  constructor
  · intro h
    have hconcat := List.dropLast_append_getLast hne
    rw [h] at hconcat
    have hsplit := intercalate_concat_nil (hostname.toList.splitOn '.').dropLast
    rw [hconcat, List.intercalate_splitOn] at hsplit
    exact hsplit
  · intro h
    rcases h with hnil | hdot
    · simp only [hnil, List.splitOn_nil, List.getLast_singleton]
    · rcases List.getLast?_eq_some_iff.mp hdot with ⟨front, hfront⟩
      simp only [hfront, List.splitOn_append_cons_self, List.splitOn_nil, List.getLast_concat]

/-! ## What a query asks -/

/-- All labels but the last have a character. -/
def NoInnerEmpty (hostname : String) : Prop := ∀ l ∈ (splitDots hostname).dropLast, l ≠ ""

/-- The labels are those of a hostname, up to one trailing empty label. -/
def SameLabels (labels : List Bytes) (hostname : String) : Prop :=
  labels = (splitDots hostname).map strBytes ∨
    labels ++ [[]] = (splitDots hostname).map strBytes

/-- Labels of 1 to 63 octets, and at most 255 octets with their length octets
    and the root. -/
def LegalName (labels : List Bytes) : Prop :=
  (∀ l ∈ labels, 1 ≤ l.length ∧ l.length ≤ 63) ∧ (labels.flatMap labelBytes ++ [0]).length ≤ 255

/-- The query carries a legal name with the labels of the hostname. -/
def Asks (id : UInt16) (hostname : String) (query : Bytes) : Prop :=
  ∃ labels, query = queryOf id labels ∧ LegalName labels ∧ SameLabels labels hostname

/-- Some legal name has the labels of the hostname. -/
def Expressible (hostname : String) : Prop := ∃ labels, LegalName labels ∧ SameLabels labels hostname

/-- Every query for the hostname asks about it, and where no name does the
    resolver reports an error without using its socket. -/
def NameKept (hostname : String) : Prop :=
  (∀ id query, (strBytes hostname).length ≤ maxNameLen → encodeQuery id hostname = ok query →
    Asks id hostname query) ∧
  (¬ Expressible hostname → ∀ id, ∃ e, ∀ socket server reply,
    resolveA socket server id hostname reply = err e)

theorem strBytes_eq_nil {s : String} : strBytes s = [] ↔ s = "" := by
  constructor
  · intro h
    by_contra hne
    have hpos := strBytes_length_pos (s := s) (fun hempty => hne (String.isEmpty_iff.mp hempty))
    rw [h] at hpos
    exact absurd hpos (by decide)
  · intro h
    rw [h]
    rfl

theorem keptLabels_append (ls ms : List String) :
    keptLabels (ls ++ ms) = keptLabels ls ++ keptLabels ms := by
  rw [keptLabels, List.filter_append, List.map_append, keptLabels, keptLabels]

theorem keptLabels_of_nonempty {ls : List String} (h : ∀ l ∈ ls, l ≠ "") :
    keptLabels ls = ls.map strBytes := by
  rw [keptLabels, List.filter_eq_self.mpr]
  intro l hl
  rw [Bool.not_eq_true', ← Bool.not_eq_true, String.isEmpty_iff]
  exact h l hl

/-- The labels of a hostname without inner empty ones, by its last label. -/
theorem keptLabels_splitDots {hostname : String} (h : NoInnerEmpty hostname) :
    ((splitDots hostname).getLast (splitDots_ne_nil hostname) ≠ "" ∧
      keptLabels (splitDots hostname) = (splitDots hostname).map strBytes) ∨
    ((splitDots hostname).getLast (splitDots_ne_nil hostname) = "" ∧
      keptLabels (splitDots hostname) ++ [[]] = (splitDots hostname).map strBytes) := by
  have hconcat := List.dropLast_append_getLast (splitDots_ne_nil hostname)
  generalize (splitDots hostname).getLast (splitDots_ne_nil hostname) = last at hconcat ⊢
  unfold NoInnerEmpty at h
  rw [← hconcat, keptLabels_append, List.map_append, List.map_singleton,
    keptLabels_of_nonempty h]
  by_cases hlast : last = ""
  · right
    subst hlast
    exact ⟨rfl, by rw [List.append_assoc]; rfl⟩
  · left
    refine ⟨hlast, ?_⟩
    rw [keptLabels_of_nonempty (List.forall_mem_singleton.mpr hlast), List.map_singleton]

theorem sum_labelBytes (labels : List Bytes) :
    (labels.flatMap labelBytes).length = (labels.map (fun l => l.length + 1)).sum := by
  induction labels with
  | nil => rfl
  | cons l labels ih =>
      rw [List.flatMap_cons, List.length_append, ih, List.map_cons, List.sum_cons,
        labelBytes_length, Nat.add_comm 1]

/-- The wire form of a name is two octets longer than the text of its hostname
    without a trailing dot; the root alone is one octet. -/
theorem kept_wire_length {hostname : String} (h : NoInnerEmpty hostname) :
    ((keptLabels (splitDots hostname)).flatMap labelBytes ++ [0]).length
      = octets (bareChars hostname) + if hostname = "" then 1 else 2 := by
  have htext := labels_octets hostname
  rw [← Function.comp_def (fun l : Bytes => l.length + 1) strBytes, ← List.map_map] at htext
  rw [List.length_append, sum_labelBytes, List.length_singleton]
  have hlast := getLast_splitDots hostname
  rcases keptLabels_splitDots h with ⟨hne, hkept⟩ | ⟨heq, hkept⟩
  · rw [← hkept] at htext
    have hnot := mt hlast.mpr hne
    rw [not_or] at hnot
    rw [bareChars, if_neg hnot.2, if_neg hnot.1, htext, strBytes, octets]
  · rw [← hkept, List.map_append, List.sum_append, List.map_singleton, List.sum_singleton] at htext
    by_cases hempty : hostname = ""
    · subst hempty
      decide
    · have hdot := (hlast.mp heq).resolve_left hempty
      rcases List.getLast?_eq_some_iff.mp hdot with ⟨front, hfront⟩
      have hcut : octets hostname.toList = octets front + 1 := by
        rw [hfront, octets_append]
        rfl
      rw [strBytes, ← octets, hcut, List.length_nil] at htext
      rw [bareChars, if_pos hdot, if_neg hempty, hfront, List.dropLast_concat]
      omega

theorem noInnerEmpty_of_sameLabels {labels : List Bytes} {hostname : String}
    (hpos : ∀ l ∈ labels, 1 ≤ l.length) (h : SameLabels labels hostname) :
    NoInnerEmpty hostname := by
  have hmem : ∀ l ∈ (splitDots hostname).dropLast, strBytes l ∈ labels := by
    intro l hl
    rcases h with hall | hinit
    · rw [hall]
      exact List.mem_map_of_mem (List.dropLast_subset _ hl)
    · have hdrop := congrArg List.dropLast hinit
      rw [List.dropLast_concat, ← List.map_dropLast] at hdrop
      rw [hdrop]
      exact List.mem_map_of_mem hl
  intro l hl hempty
  have hlen := hpos _ (hmem l hl)
  rw [strBytes_eq_nil.mpr hempty] at hlen
  exact absurd hlen (by decide)

theorem queryOf_inj {id : UInt16} {ls ms : List Bytes}
    (hls : ∀ l ∈ ls, 0 < l.length ∧ l.length ≤ 63)
    (hms : ∀ l ∈ ms, 0 < l.length ∧ l.length ≤ 63) (h : queryOf id ls = queryOf id ms) :
    ls = ms := by
  simp only [queryOf, List.append_assoc] at h
  exact labels_inj hls hms (List.append_cancel_left h)

/-- When a query of labels that fit asks about its hostname. -/
theorem asks_iff {hostname : String} (id : UInt16)
    (hlen : ∀ l ∈ splitDots hostname, (strBytes l).length ≤ maxLabelLen) :
    Asks id hostname (queryOf id (keptLabels (splitDots hostname))) ↔
      NoInnerEmpty hostname ∧ octets (bareChars hostname) ≤ 253 := by
  have hkept : ∀ l ∈ keptLabels (splitDots hostname), 0 < l.length ∧ l.length ≤ 63 := by
    intro l hl
    exact ⟨keptLabels_length_pos l hl, keptLabels_length_le hlen l hl⟩
  constructor
  · intro h
    rcases h with ⟨labels, hquery, ⟨hlegal, hwire⟩, hsame⟩
    have hinner := noInnerEmpty_of_sameLabels (fun l hl => (hlegal l hl).1) hsame
    refine ⟨hinner, ?_⟩
    rw [← queryOf_inj hkept hlegal hquery, kept_wire_length hinner] at hwire
    by_cases hempty : hostname = ""
    · subst hempty
      decide
    · rw [if_neg hempty] at hwire
      omega
  · intro h
    rcases h with ⟨hinner, htext⟩
    refine ⟨_, rfl, ⟨hkept, ?_⟩, ?_⟩
    · rw [kept_wire_length hinner]
      split <;> omega
    · rcases keptLabels_splitDots hinner with ⟨-, hall⟩ | ⟨-, hinit⟩
      · exact Or.inl hall
      · exact Or.inr hinit

theorem pushLabels_ne_panic (buf : Bytes) (labels : List String) :
    pushLabels buf labels ≠ panic := by
  induction labels generalizing buf with
  | nil =>
      unfold pushLabels
      simp only [ne_eq, reduceCtorEq, not_false_eq_true]
  | cons label labels ih =>
      unfold pushLabels
      by_cases hempty : label.isEmpty = true
      · rw [if_pos hempty]
        exact ih buf
      rw [if_neg hempty]
      by_cases hlong : (strBytes label).length > maxLabelLen
      · rw [if_pos hlong]
        simp only [invalid, ne_eq, reduceCtorEq, not_false_eq_true]
      · rw [if_neg hlong]
        exact ih _

theorem encodeQuery_cases (id : UInt16) (hostname : String) :
    (∃ e, encodeQuery id hostname = err e) ∨ ∃ query, encodeQuery id hostname = ok query := by
  unfold encodeQuery
  rcases hpush : pushLabels (queryHeader id) (splitDots hostname) with buf | e | _
  · exact Or.inr ⟨_, ok_bind _ _⟩
  · exact Or.inl ⟨e, err_bind _ _⟩
  · exact absurd hpush (pushLabels_ne_panic _ _)

/-- Without a query the resolver reports an error and leaves its socket
    alone. -/
theorem resolveA_refused {id : UInt16} {hostname : String}
    (h : ∀ query, (strBytes hostname).length ≤ maxNameLen → encodeQuery id hostname ≠ ok query) :
    ∃ e, ∀ socket server reply, resolveA socket server id hostname reply = err e := by
  by_cases hlong : (strBytes hostname).length > maxNameLen
  · exact ⟨_, fun socket server reply => if_pos hlong⟩
  rcases encodeQuery_cases id hostname with ⟨e, he⟩ | ⟨query, hquery⟩
  · refine ⟨e, ?_⟩
    intro socket server reply
    unfold resolveA
    rw [if_neg hlong, he, err_bind]
  · exact absurd hquery (h query (Nat.le_of_not_lt hlong))

/-- A hostname is asked about, or refused, exactly where its text or a label is
    too long to be sent at all, or where no label but the last is empty and the
    text without a trailing dot has at most 253 octets. -/
theorem nameKept_iff (hostname : String) :
    NameKept hostname ↔
      maxNameLen < (strBytes hostname).length ∨
      (∃ l ∈ splitDots hostname, maxLabelLen < (strBytes l).length) ∨
      (NoInnerEmpty hostname ∧ octets (bareChars hostname) ≤ 253) := by
  constructor
  · intro h
    by_cases htext : maxNameLen < (strBytes hostname).length
    · exact Or.inl htext
    by_cases hlabel : ∃ l ∈ splitDots hostname, maxLabelLen < (strBytes l).length
    · exact Or.inr (Or.inl hlabel)
    · have hlen : ∀ l ∈ splitDots hostname, (strBytes l).length ≤ maxLabelLen := by
        intro l hl
        exact Nat.le_of_not_lt (fun hlt => hlabel ⟨l, hl, hlt⟩)
      have hasks := h.1 0 _ (Nat.le_of_not_lt htext) (encodeQuery_ok_iff.mpr ⟨hlen, rfl⟩)
      exact Or.inr (Or.inr ((asks_iff 0 hlen).mp hasks))
  · intro h
    have hfirst : ∀ id query, (strBytes hostname).length ≤ maxNameLen →
        encodeQuery id hostname = ok query → Asks id hostname query := by
      intro id query htext hquery
      rcases encodeQuery_ok_iff.mp hquery with ⟨hlen, rfl⟩
      rcases h with hlong | ⟨l, hl, hlong⟩ | hname
      · exact absurd htext (Nat.not_le_of_lt hlong)
      · exact absurd (hlen l hl) (Nat.not_le_of_lt hlong)
      · exact (asks_iff id hlen).mpr hname
    refine ⟨hfirst, ?_⟩
    intro hnone id
    apply resolveA_refused
    intro query htext hquery
    rcases hfirst id query htext hquery with ⟨labels, -, hname⟩
    exact hnone ⟨labels, hname⟩

/-- `a..b` has no name, and the query for it asks about `a.b`. -/
theorem doubled_dot_asked :
    ¬ NameKept "a..b" ∧ encodeQuery 7 "a..b" = encodeQuery 7 "a.b" := by
  refine ⟨?_, by decide⟩
  intro h
  have hlen : ∀ l ∈ splitDots "a..b", (strBytes l).length ≤ maxLabelLen := by decide
  have hasks := h.1 7 _ (by decide) (encodeQuery_ok_iff.mpr ⟨hlen, rfl⟩)
  have hinner := ((asks_iff 7 hlen).mp hasks).1
  exact absurd (hinner "" (by decide)) (by decide)

end Dns

end ProxyPen
