import ServerPages.Proofs.Json.Prospect.Objects
import ServerPages.Proofs.Request.Completing
import ServerPages.Proofs.Text.Utf8
import ServerPages.Server.Connection

/-!
# Messages in pieces

A message arrives in pieces, none of which is larger than what one attempt to receive brings. However
an acceptable message is cut into such pieces, it is received as a whole exactly if none of its
numbers has more digits before the point than an integer may have (`Message.received_in_pieces`):
then every beginning of it is known to be incomplete. Otherwise the beginning that stops behind those
digits is given up for an integer that is too long, although the message goes on
(`Message.lost_oneNumber`).
-/

namespace ServerPages

open Json (Source NumberText)

namespace Message

variable {blank t : Text} {v : Source} {e : Envelope} {p : Bytes}

/-- A failure that more bytes may mend. -/
def IsIncomplete (r : Except Failure Envelope) : Prop := ∃ cause, r = .error (.incomplete cause)

theorem read_eq (s : Text) : Json.read s = Json.took (Json.readValue Json.nestingLimit s) := rfl

/-! ### Decoding what has arrived -/

theorem trimLeft_append {s : Text} (hb : ∀ c ∈ blank, Text.isBlank c = true)
    (hs : ∀ c ∈ s.head?, Text.isBlank c = false) : Text.trimLeft (blank ++ s) = s := by
  rw [Text.trimLeft, List.dropWhile_append_of_pos hb]
  cases s with
  | nil => rfl
  | cons c s => rw [List.dropWhile_cons_of_neg (by simpa using hs c rfl)]

private theorem isBlank_head_object (hv : v.IsObject) : ∀ c ∈ v.text.head?, Text.isBlank c = false := by
  cases v with
  | emptyObject | object =>
    intro c hc
    obtain rfl : '\x7b' = c := by simpa [Source.text] using hc
    decide
  | _ => exact absurd hv id

private theorem isBlank_head_cut {s q : Text} (h : Cut q s)
    (hs : ∀ c ∈ s.head?, Text.isBlank c = false) : ∀ c ∈ q.head?, Text.isBlank c = false := by
  obtain ⟨u, rfl⟩ := h.isPrefix
  cases q with
  | nil => simp
  | cons x q => exact hs

/-- What has arrived of a message, without the blanks before it, is a beginning of its object. -/
theorem trimLeft_cut (hb : ∀ c ∈ blank, Text.isBlank c = true) (hv : v.IsObject)
    (ht : Cut t (blank ++ v.text)) : Cut (Text.trimLeft t) v.text := by
  have hhead := isBlank_head_object hv
  rcases Cut.append_iff.mp ht with hcut | ⟨q, rfl, hq⟩
  · have hall : ∀ c ∈ t, Text.isBlank c = true := fun c hc => hb c (hcut.isPrefix.subset hc)
    have htrim := trimLeft_append (s := []) hall (by simp)
    rw [List.append_nil] at htrim
    obtain ⟨c, u, hc, -⟩ := v.exists_cons
    rw [htrim, hc]
    exact Cut.nil_cons c u
  · rw [trimLeft_append hb (isBlank_head_cut hq hhead)]
    exact hq

private theorem isIncomplete_of_fails (ht : Utf8.decode p = .ok t)
    (h : Json.Fails (Json.read (Text.trimLeft t))) : IsIncomplete (decode p) := by
  obtain ⟨r, hr, htr⟩ := h
  cases r with
  | refused complaint rest =>
    refine ⟨.json complaint (.of (Text.trimLeft t) rest), ?_⟩
    have htr : isTruncated complaint rest = true := htr
    rw [decode, ht]
    dsimp only
    rw [hr]
    dsimp only
    rw [if_pos htr]
  | tooDeep | tooManyDigits => exact absurd htr id

theorem isIncomplete_of_unexpectedEnd {f : Utf8.Fault} (hf : Utf8.decode p = .error f)
    (h : f.reason = .unexpectedEnd) : IsIncomplete (decode p) := by
  refine ⟨.bytes f, ?_⟩
  rw [decode, hf]
  dsimp only
  rw [if_pos h]

section Accepted

variable (hb : ∀ c ∈ blank, Text.isBlank c = true) (hv : v.IsObject)
include hb hv

omit hb hv in
private theorem read_text : Json.read v.text = (v.denote Json.nestingLimit).map fun j => (j, []) := by
  have h := v.took_readValue Json.nestingLimit NumberText.IsTail.nil.stops
  rwa [List.append_nil] at h

/-- A message is accepted if what it denotes has the shape of an envelope. -/
theorem decode_of_denote {j : Json} (hj : v.denote Json.nestingLimit = .ok j) :
    decode (Utf8.encode (blank ++ v.text)) = match (Shape.envelope j).toExcept with
      | .error issues => .error (.misshapen issues)
      | .ok envelope => .ok envelope := by
  rw [decode, Utf8.decode_encode]
  dsimp only
  rw [trimLeft_append hb (isBlank_head_object hv), read_text, hj]
  rfl

/-- An accepted message denotes a value. -/
theorem exists_denote (hd : decode (Utf8.encode (blank ++ v.text)) = .ok e) :
    ∃ j, v.denote Json.nestingLimit = .ok j := by
  cases hden : v.denote Json.nestingLimit with
  | ok j => exact ⟨j, rfl⟩
  | error r =>
    rw [decode, Utf8.decode_encode] at hd
    dsimp only at hd
    rw [trimLeft_append hb (isBlank_head_object hv), read_text, hden] at hd
    cases r <;> cases hd

/-- Every beginning of a message with short numbers is known to be incomplete. -/
theorem isIncomplete_of_cut {j : Json} (hj : v.denote Json.nestingLimit = .ok j)
    (hshort : ∀ n ∈ v.numbers, n.IsShort) (hp : Cut p (Utf8.encode (blank ++ v.text))) :
    IsIncomplete (decode p) := by
  rcases Utf8.decode_cut hp with ⟨t, ht, hdec⟩ | ⟨f, hdec, hf⟩
  · exact isIncomplete_of_fails hdec
      (Source.fails_cut_object hv hj hshort (trimLeft_cut hb hv ht))
  · exact isIncomplete_of_unexpectedEnd hdec hf

/-- A message with a long number has a beginning that is given up. -/
theorem exists_cut_of_long {j : Json} (hj : v.denote Json.nestingLimit = .ok j) {n : NumberText}
    (hn : n ∈ v.numbers) (hlong : ¬ n.IsShort) :
    ∃ p k, Cut p (Utf8.encode (blank ++ v.text)) ∧ decode p = .error (.tooManyDigits k) := by
  obtain ⟨q, hq, hover⟩ := v.exists_cut_of_long hj hn hlong
  have htrim := trimLeft_append hb (isBlank_head_cut hq (isBlank_head_object hv))
  rw [← read_eq, ← htrim] at hover
  obtain ⟨k, hk⟩ := hover
  exact ⟨_, k, Utf8.cut_encode (hq.append_left blank),
    decode_of_tooManyDigits (Utf8.decode_encode _) hk⟩

end Accepted

/-! ### Receiving -/

/-- If every beginning of what has come is incomplete but not all of it, it is received as it is
decoded, in as many attempts as it has pieces, whatever comes behind it. -/
theorem receiveFrom_pieces {w got : Bytes} {attempts : Nat} {pieces : List Bytes}
    (hw : ¬ IsIncomplete (decode w)) (hcut : ∀ p, Cut p w → IsIncomplete (decode p))
    (hne : pieces ≠ []) (hall : ∀ b ∈ pieces, b ≠ []) (hpieces : got ++ pieces.flatten = w)
    (rest : List Connection.Chunk) :
    Connection.receiveFrom got attempts (pieces.map .data ++ rest) =
      ⟨(decode w).mapError .message, attempts + pieces.length⟩ := by
  induction pieces generalizing got attempts with
  | nil => exact absurd rfl hne
  | cons b pieces ih =>
    rw [List.map_cons, List.cons_append, Connection.receiveFrom]
    rw [List.flatten_cons, ← List.append_assoc] at hpieces
    by_cases hlast : pieces = []
    -- the last piece completes what has come, an earlier one leaves a proper beginning of it
    · subst hlast
      rw [List.flatten_nil, List.append_nil] at hpieces
      rw [hpieces]
      cases hd : decode w with
      | ok e => rfl
      | error f =>
        cases f with
        | incomplete cause => exact absurd ⟨cause, hd⟩ hw
        | malformed | misshapen | tooDeep | tooManyDigits => rfl
    · have hmore : pieces.flatten ≠ [] := by
        obtain ⟨b', pieces', rfl⟩ := List.exists_cons_of_ne_nil hlast
        exact fun h => hall b' (by simp) (List.append_eq_nil_iff.mp h).1
      have hgot : Cut (got ++ b) w := by
        refine ⟨⟨_, hpieces⟩, fun heq => hmore ?_⟩
        rw [← heq] at hpieces
        simpa using hpieces
      obtain ⟨cause, hcause⟩ := hcut _ hgot
      have hb : b.isEmpty = false := by simpa using hall b List.mem_cons_self
      rw [hcause]
      dsimp only
      rw [if_neg (by simp [hb]), ih hlast (fun x hx => hall x (List.mem_cons_of_mem _ hx)) hpieces,
        List.length_cons]
      congr 1
      omega

theorem receive_pieces {w : Bytes} {pieces : List Bytes} (hw : ¬ IsIncomplete (decode w))
    (hcut : ∀ p, Cut p w → IsIncomplete (decode p)) (hall : ∀ b ∈ pieces, Connection.IsPiece b)
    (hpieces : pieces.flatten = w) (rest : List Connection.Chunk) :
    Connection.receive true (pieces.map .data ++ rest) =
      ⟨(decode w).mapError .message, pieces.length⟩ := by
  have hne : pieces ≠ [] := by
    rintro rfl
    obtain rfl : [] = w := hpieces
    exact hw ⟨_, rfl⟩
  rw [Connection.receive_pieces hall, receiveFrom_pieces hw hcut hne (fun b hb => (hall b hb).1)
    hpieces, Nat.zero_add]

/-- What has a beginning that is not incomplete has a first one. -/
theorem exists_first {w : Bytes} (hp : Cut p w) (h : ¬ IsIncomplete (decode p)) :
    ∃ q, Cut q w ∧ ¬ IsIncomplete (decode q) ∧ ∀ r, Cut r q → IsIncomplete (decode r) := by
  induction hlen : p.length using Nat.strongRecOn generalizing p with
  | _ n ih =>
    by_cases hall : ∀ r, Cut r p → IsIncomplete (decode r)
    · exact ⟨p, hp, h, hall⟩
    · obtain ⟨r, hr, hinc⟩ : ∃ r, Cut r p ∧ ¬ IsIncomplete (decode r) := by
        simpa only [not_forall, exists_prop] using hall
      exact ih r.length (hlen ▸ hr.length_lt) (hr.trans hp) hinc rfl

/-- The smallest pieces. -/
theorem isPiece_of_mem_singles {w b : Bytes} (h : b ∈ w.map fun x => [x]) :
    Connection.IsPiece b := by
  obtain ⟨x, -, rfl⟩ := List.mem_map.mp h
  exact ⟨List.cons_ne_nil x [], show 1 ≤ 4096 by decide⟩

/-- A message that has a beginning that is not incomplete is not received from all its pieces. -/
theorem exists_pieces_of_cut {w : Bytes} (hp : Cut p w) (h : ¬ IsIncomplete (decode p)) :
    ∃ pieces : List Bytes, (∀ b ∈ pieces, Connection.IsPiece b) ∧ pieces.flatten = w ∧
      Connection.receive true (pieces.map .data) ≠ ⟨.ok e, pieces.length⟩ := by
  obtain ⟨q, hq, hinc, hfirst⟩ := exists_first hp h
  obtain ⟨rest, rfl⟩ := hq.isPrefix
  have hflatten (w : Bytes) : (w.map fun x => [x]).flatten = w := List.flatMap_singleton' w
  refine ⟨(q ++ rest).map fun x => [x], fun b => isPiece_of_mem_singles, hflatten _, fun heq => ?_⟩
  -- receiving comes to an end behind the first beginning that is not incomplete
  rw [List.map_append, List.map_append, receive_pieces hinc hfirst (fun b => isPiece_of_mem_singles)
    (hflatten q)] at heq
  have hattempts := congrArg Connection.Received.attempts heq
  simp only [List.length_append, List.length_map] at hattempts
  exact hq.ne (by rw [List.eq_nil_of_length_eq_zero (by omega : rest.length = 0), List.append_nil])

/-- **Messages in pieces.** An accepted message (blanks and one object of the JSON grammar) is
received the same in whatever pieces it comes, with one attempt for each piece, if and only if no
number in it has more digits before the point than an integer may have; and that is exactly when
all its proper beginnings are incomplete and nothing else. -/
theorem received_in_pieces (hb : ∀ c ∈ blank, Text.isBlank c = true) (hv : v.IsObject)
    (hd : decode (Utf8.encode (blank ++ v.text)) = .ok e) :
    ((∀ pieces : List Bytes, (∀ b ∈ pieces, Connection.IsPiece b) →
        pieces.flatten = Utf8.encode (blank ++ v.text) →
        Connection.receive true (pieces.map .data) = ⟨.ok e, pieces.length⟩) ↔
      ∀ n ∈ v.numbers, n.IsShort) ∧
    ((∀ p, Cut p (Utf8.encode (blank ++ v.text)) → IsIncomplete (decode p)) ↔
      ∀ n ∈ v.numbers, n.IsShort) := by
  obtain ⟨j, hj⟩ := exists_denote hb hv hd
  have hbeginnings : (∀ p, Cut p (Utf8.encode (blank ++ v.text)) → IsIncomplete (decode p)) ↔
      ∀ n ∈ v.numbers, n.IsShort := by
    refine ⟨fun hall n hn => ?_, fun hshort p hp => isIncomplete_of_cut hb hv hj hshort hp⟩
    by_contra hlong
    obtain ⟨p, k, hp, hk⟩ := exists_cut_of_long hb hv hj hn hlong
    obtain ⟨cause, hcause⟩ := hall p hp
    rw [hk] at hcause
    cases hcause
  refine ⟨?_, hbeginnings⟩
  rw [← hbeginnings]
  refine ⟨fun hall p hp => ?_, fun hcut pieces hpiece hw => ?_⟩
  · by_contra hinc
    obtain ⟨pieces, hpiece, hw, hne⟩ := exists_pieces_of_cut hp hinc
    exact hne (hall pieces hpiece hw)
  · have hwhole : ¬ IsIncomplete (decode (Utf8.encode (blank ++ v.text))) := by
      rintro ⟨cause, hcause⟩
      cases hd.symm.trans hcause
    have hreceived := receive_pieces hwhole hcut hpiece hw []
    rwa [List.append_nil, hd] at hreceived

/-! ### A message with one number -/

/-- No blanks. -/
def noBlanks : Json.Blanks := ⟨[], by simp⟩

/-- The number with `k + 1` ones before the point and a five behind it. -/
def onesAndHalf (k : Nat) : NumberText where
  negative := false
  whole := ⟨List.replicate (k + 1) '1', by simp, fun c hc => by
    rw [List.eq_of_mem_replicate hc]
    rfl⟩
  lead := .inr (by simp [List.replicate_succ])
  fraction := some ⟨['5'], by simp, by simp; decide⟩
  exponent := none

/-- A message with a single number, in a member of no meaning. -/
def oneNumber (k : Nat) : Source :=
  .object noBlanks (.last [.plain 'x' (by decide) (by decide) (by decide)] noBlanks noBlanks
    (.number (onesAndHalf k)) noBlanks)

private theorem isObject_oneNumber (k : Nat) : (oneNumber k).IsObject := trivial

private theorem denote_oneNumber (k : Nat) :
    ∃ r, (oneNumber k).denote Json.nestingLimit = .ok (.object [([.char 'x'], .real r)]) :=
  ⟨_, rfl⟩

/-- Members of no meaning are ignored. -/
theorem decode_oneNumber (k : Nat) :
    decode (Utf8.encode ([] ++ (oneNumber k).text)) = .ok {} := by
  obtain ⟨r, hr⟩ := denote_oneNumber k
  rw [decode_of_denote (by simp) (isObject_oneNumber k) hr]
  rfl

/-- The message with the number `11.5` is received in whatever pieces it comes. -/
theorem received_oneNumber : (∀ c ∈ ([] : Text), Text.isBlank c = true) ∧
    (oneNumber 1).IsObject ∧ decode (Utf8.encode ([] ++ (oneNumber 1).text)) = .ok {} ∧
    ∀ pieces : List Bytes, (∀ b ∈ pieces, Connection.IsPiece b) →
      pieces.flatten = Utf8.encode ([] ++ (oneNumber 1).text) →
      Connection.receive true (pieces.map .data) = ⟨.ok {}, pieces.length⟩ := by
  refine ⟨by simp, isObject_oneNumber 1, decode_oneNumber 1, ?_⟩
  refine (received_in_pieces (by simp) (isObject_oneNumber 1) (decode_oneNumber 1)).1.mpr ?_
  intro n hn
  obtain rfl : n = onesAndHalf 1 := List.mem_singleton.mp hn
  show 2 ≤ Decimal.digitLimit
  decide

/-- What comes before the point of the number. -/
def openNumber (k : Nat) : Text := "\x7b\"x\":".toList ++ List.replicate (k + 1) '1'

private theorem text_oneNumber (k : Nat) : (oneNumber k).text = openNumber k ++ ".5\x7d".toList := by
  simp [oneNumber, openNumber, onesAndHalf, Source.text, Json.Members.text, Json.closedText,
    noBlanks, NumberText.text, NumberText.signText, NumberText.fractionText,
    NumberText.exponentText, Json.Mark.text]

private theorem encode_ones (n : Nat) :
    Utf8.encode (List.replicate n '1') = List.replicate n (0x31 : UInt8) := by
  induction n with
  | zero => rfl
  | succ n ih => rw [List.replicate_succ, Utf8.encode_cons, ih]; rfl

/-- What comes before the point is incomplete as long as the digits may be an integer. -/
theorem isIncomplete_openNumber {k : Nat} (hk : k + 1 ≤ Decimal.digitLimit) :
    IsIncomplete (decode (Utf8.encode (openNumber k))) := by
  have hblank : ∀ c ∈ ([] : Text), Text.isBlank c = true := by simp
  obtain ⟨r, hr⟩ := denote_oneNumber k
  refine isIncomplete_of_cut hblank (isObject_oneNumber k) hr (fun n hn => ?_) ?_
  · obtain rfl : n = onesAndHalf k := List.mem_singleton.mp hn
    rwa [NumberText.IsShort, onesAndHalf, List.length_replicate]
  · have hcut := (Cut.nil_cons '.' "5\x7d".toList).append_left (openNumber k)
    rw [List.append_nil] at hcut
    rw [List.nil_append, text_oneNumber]
    exact Utf8.cut_encode hcut

/-- Behind too many digits it is given up. -/
theorem decode_openNumber {k : Nat} (hk : Decimal.digitLimit < k + 1) :
    decode (Utf8.encode (openNumber k)) = .error (.tooManyDigits (k + 1)) := by
  refine decode_of_tooManyDigits (t := openNumber k) (Utf8.decode_encode _)
    (Json.read_member_error ['x'] (List.replicate (k + 1) '1') (by decide) ?_)
  let n : NumberText := ⟨false, (onesAndHalf k).whole, (onesAndHalf k).lead, none, none⟩
  have htext : n.text ++ [] = List.replicate (k + 1) '1' := by
    simp [n, onesAndHalf, NumberText.text, NumberText.signText, NumberText.fractionText,
      NumberText.exponentText]
  have hlong : Decimal.digitLimit < (List.replicate (k + 1) '1').length := by
    rwa [List.length_replicate]
  have hvalue : n.numeral.value = .error (.tooManyDigits (List.replicate (k + 1) '1').length) :=
    if_pos hlong
  have hread := n.took_readScalar NumberText.IsTail.nil.stops
  have hscalar : Json.readValue Json.innerLimit (n.text ++ []) = _ := n.readValue_eq []
  rw [hvalue, ← hscalar, htext, List.length_replicate] at hread
  have hskip : Json.skipSpace (List.replicate (k + 1) '1') = List.replicate (k + 1) '1' :=
    Json.skipSpace_cons (by decide)
  rw [Json.spacedValue, hskip, hread]
  rfl

/-- The pieces of the message whose number has 4301 digits before the point, as they come if the
part before the point has arrived first: as much of it as one attempt brings, its other 210 digits,
and the rest. -/
def lostPieces : List Bytes :=
  [Utf8.encode (openNumber 4090), Utf8.encode (List.replicate 210 '1'),
    Utf8.encode ".5\x7d".toList]

private theorem openNumber_append : openNumber 4090 ++ List.replicate 210 '1' = openNumber 4300 := by
  rw [openNumber, openNumber, List.append_assoc, List.replicate_append_replicate]

private theorem flatten_lostPieces : lostPieces.flatten = Utf8.encode (oneNumber 4300).text := by
  simp only [lostPieces, List.flatten_cons, List.flatten_nil, List.append_nil, text_oneNumber,
    ← openNumber_append, Utf8.encode_append, List.append_assoc]

/-- The first piece is the largest that one attempt brings. -/
theorem length_encode_openNumber (k : Nat) : (Utf8.encode (openNumber k)).length = k + 6 := by
  have hname : (Utf8.encode "\x7b\"x\":".toList).length = 5 := by decide
  rw [openNumber, Utf8.encode_append, List.length_append, hname, encode_ones,
    List.length_replicate]
  omega

private theorem isPiece_of_mem_lostPieces : ∀ b ∈ lostPieces, Connection.IsPiece b := by
  have hlast : Connection.IsPiece (Utf8.encode ".5\x7d".toList) := by decide
  have hfirst := length_encode_openNumber 4090
  have hsecond : (Utf8.encode (List.replicate 210 '1')).length = 210 := by
    rw [encode_ones, List.length_replicate]
  rw [lostPieces, List.forall_mem_cons, List.forall_mem_cons, List.forall_mem_singleton]
  refine ⟨⟨fun h => ?_, hfirst.le⟩, ⟨fun h => ?_, hsecond.le.trans (by decide)⟩, hlast⟩
  · rw [h] at hfirst
    cases hfirst
  · rw [h] at hsecond
    cases hsecond

/-- **A message is lost.** The message whose number has 4301 digits before the point is accepted
as a whole, but not received from pieces as an attempt to receive brings them: behind the second one
it is given up. -/
theorem lost_oneNumber : decode (Utf8.encode (oneNumber 4300).text) = .ok {} ∧
    (∀ b ∈ lostPieces, Connection.IsPiece b) ∧
    lostPieces.flatten = Utf8.encode (oneNumber 4300).text ∧
    Connection.receive true (lostPieces.map .data) =
      ⟨.error (.message (.tooManyDigits 4301)), 2⟩ := by
  refine ⟨decode_oneNumber 4300, isPiece_of_mem_lostPieces, flatten_lostPieces, ?_⟩
  obtain ⟨cause, hfirst⟩ := isIncomplete_openNumber (k := 4090) (by decide)
  have hsecond := decode_openNumber (k := 4300) (by decide)
  rw [← openNumber_append, Utf8.encode_append] at hsecond
  have hpiece := (isPiece_of_mem_lostPieces _ (List.mem_cons_self)).1
  have hreceived := Connection.receive_pieces isPiece_of_mem_lostPieces []
  rw [List.append_nil] at hreceived
  rw [hreceived, lostPieces, List.map_cons, List.cons_append, Connection.receiveFrom,
    List.nil_append, hfirst]
  dsimp only
  rw [if_neg (by simpa using hpiece), List.map_cons, List.cons_append, Connection.receiveFrom,
    hsecond]

end Message

end ServerPages
