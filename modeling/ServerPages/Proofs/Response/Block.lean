import Mathlib.Data.List.Basic
import ServerPages.Proofs.Response.Framing

/-!
# Header blocks

The raw form of a header is a block of lines as browsers take it: the content type, a line for
each field that is kept, and an empty line, behind which the body begins. What a page says goes
into these lines as it is, so a line end in it ends a line.

A reader of the block is given by the bytes that end a line for it (`LineEnds`): newlines, or
carriage returns as well. The main statement says exactly when it reads the block as it was meant
(`Header.readBlock_raw`): if and only if no line that is written holds a line end of its own, and
none is empty. Events without line ends, of which no `header-field` is empty, give such lines; a
line end in a content type adds a header, and an empty `header-field` ends the header
(`Header.split_block`).
-/

namespace ServerPages

/-- The bytes that end a line for a reader: the newline, and perhaps other control characters. -/
structure LineEnds where
  isEnd : UInt8 → Bool
  isEnd_newline : isEnd newline = true
  control : ∀ b, isEnd b = true → b < 0x20

namespace LineEnds

/-- Newlines alone. -/
def newlines : LineEnds where
  isEnd b := b = newline
  isEnd_newline := by decide
  control b hb := by
    obtain rfl : b = newline := of_decide_eq_true hb
    decide

/-- Newlines and carriage returns. -/
def anyReturn : LineEnds where
  isEnd b := b = newline || b = 13
  isEnd_newline := by decide
  control b hb := by
    rcases Bool.or_eq_true_iff.mp hb with h | h
    · obtain rfl : b = newline := of_decide_eq_true h
      decide
    · obtain rfl : b = 13 := of_decide_eq_true h
      decide

variable {r : LineEnds}

/-- The lines of bytes before the first empty one, and what follows that one; `line` is what has
been read of the line at hand, the latest byte first. -/
def linesFrom (r : LineEnds) (line : Bytes) : Bytes → Option (List Bytes × Bytes)
  | [] => none
  | b :: s =>
    if r.isEnd b then
      if line = [] then some ([], s)
      else (r.linesFrom [] s).map fun (lines, rest) => (line.reverse :: lines, rest)
    else r.linesFrom (b :: line) s

/-- What a reader of a header block makes of a response: the lines of the block, and the body. -/
def readBlock (r : LineEnds) (s : Bytes) : Option (List Bytes × Bytes) := r.linesFrom [] s

/-- No line ends within a text. -/
def IsInLine (r : LineEnds) (s : Text) : Prop := ∀ b ∈ Utf8.encode s, r.isEnd b = false

instance (r : LineEnds) (s : Text) : Decidable (r.IsInLine s) :=
  List.decidableBAll (fun b => r.isEnd b = false) (Utf8.encode s)

private theorem isInLine_append {a s : Text} : r.IsInLine (a ++ s) ↔ r.IsInLine a ∧ r.IsInLine s := by
  rw [IsInLine, Utf8.encode_append]
  exact List.forall_mem_append

private theorem linesFrom_append {l : Bytes} (h : ∀ b ∈ l, r.isEnd b = false) (line s : Bytes) :
    r.linesFrom line (l ++ s) = r.linesFrom (l.reverse ++ line) s := by
  induction l generalizing line with
  | nil => rfl
  | cons b l ih =>
    obtain ⟨hb, hl⟩ := List.forall_mem_cons.mp h
    rw [List.cons_append, linesFrom, if_neg (by simp [hb]), ih hl, List.reverse_cons,
      List.append_assoc]
    rfl

/-- A line that is not empty is read up to its end. -/
theorem readBlock_line {l : Bytes} (h : ∀ b ∈ l, r.isEnd b = false) (hne : l ≠ []) (s : Bytes) :
    r.readBlock (l ++ newline :: s) =
      (r.readBlock s).map fun (lines, rest) => (l :: lines, rest) := by
  have hr : l.reverse ++ [] ≠ [] := by simpa using hne
  rw [readBlock, linesFrom_append h, linesFrom, if_pos r.isEnd_newline, if_neg hr,
    List.append_nil, List.reverse_reverse]
  rfl

/-- Lines are read up to the empty one. -/
theorem readBlock_lines {lines : List Bytes}
    (h : ∀ l ∈ lines, l ≠ [] ∧ ∀ b ∈ l, r.isEnd b = false) (body : Bytes) :
    r.readBlock (lines.flatMap (· ++ [newline]) ++ newline :: body) = some (lines, body) := by
  induction lines with
  | nil =>
    rw [List.flatMap_nil, List.nil_append, readBlock, linesFrom, if_pos r.isEnd_newline,
      if_pos rfl]
  | cons l lines ih =>
    obtain ⟨⟨hne, hl⟩, hlines⟩ := List.forall_mem_cons.mp h
    rw [List.flatMap_cons, List.append_assoc, List.append_assoc, List.singleton_append,
      readBlock_line hl hne, ih hlines]
    rfl

/-- Lines that are read hold no line end and are not empty. -/
theorem of_mem_linesFrom {line s rest : Bytes} {lines : List Bytes}
    (hline : ∀ b ∈ line, r.isEnd b = false) (h : r.linesFrom line s = some (lines, rest)) :
    ∀ l ∈ lines, l ≠ [] ∧ ∀ b ∈ l, r.isEnd b = false := by
  induction s generalizing line lines with
  | nil => cases h
  | cons b s ih =>
    rw [linesFrom] at h
    split at h
    · split at h
      · cases h
        simp
      · next hne =>
        obtain ⟨⟨lines', rest'⟩, hread, hpair⟩ := Option.map_eq_some_iff.mp h
        cases hpair
        refine List.forall_mem_cons.mpr ⟨⟨by simpa using hne, ?_⟩, ih (by simp) hread⟩
        exact fun x hx => hline x (List.mem_reverse.mp hx)
    · next hb =>
      exact ih (List.forall_mem_cons.mpr ⟨by simpa using hb, hline⟩) h

end LineEnds

namespace Header

variable {r : LineEnds}

/-! ### The lines of a block -/

/-- The block that events give. -/
def block (events : List Event) : Raw := events.foldl Raw.step {}

/-- The lines of the block that events give, but for the empty one behind them: the content type
and the fields that are kept. -/
def blockLines (events : List Event) : List Text :=
  ("Content-type: ".toList ++ (block events).contentType) ::
    (block events).fields.map RawField.text

private theorem encode_raw (events : List Event) (body : Bytes) :
    Utf8.encode (raw events) ++ body =
      ((blockLines events).map Utf8.encode).flatMap (· ++ [newline]) ++ newline :: body := by
  have hline : ∀ l : Text, Utf8.encode (line l) = Utf8.encode l ++ [newline] := encode_line
  have hfields : ∀ fields : List RawField, Utf8.encode (fields.flatMap (line ·.text)) =
      ((fields.map RawField.text).map Utf8.encode).flatMap (· ++ [newline]) := by
    intro fields
    induction fields with
    | nil => rfl
    | cons f fields ih =>
      rw [List.flatMap_cons, Utf8.encode_append, hline, ih]
      rfl
  have hempty : Utf8.encode (line []) = [newline] := rfl
  rw [raw, Utf8.encode_append, Utf8.encode_append, hline, hfields, hempty, blockLines, block]
  simp only [List.map_cons, List.flatMap_cons, List.append_assoc, List.singleton_append]

/-- An event that shows in a block: it sets the content type, it describes a field, or its key is
the name of one. -/
def IsShown (e : Event) : Prop :=
  e.key = "mime-type".toList ∨ e.key = "header-field".toList ∨ e.key ∉ knownKeys

instance (e : Event) : Decidable (IsShown e) :=
  inferInstanceAs (Decidable (_ ∨ _ ∨ _))

/-- An event that brings neither a line end of its own into a block nor an empty line. -/
structure IsTame (r : LineEnds) (e : Event) : Prop where
  key : r.IsInLine e.key
  value : r.IsInLine e.value
  ne_nil : e.key = "header-field".toList → e.value ≠ []

/-- A line that a reader takes as it was meant. -/
def IsWhole (r : LineEnds) (l : Text) : Prop := l ≠ [] ∧ r.IsInLine l

/-- The text holds no control characters. -/
def IsVisible (s : Text) : Prop := ∀ b ∈ Utf8.encode s, ¬ b < 0x20

instance (s : Text) : Decidable (IsVisible s) :=
  List.decidableBAll (fun b => ¬ b < 0x20) (Utf8.encode s)

/-- No line ends within a text without control characters. -/
theorem isInLine_of_visible {s : Text} (h : IsVisible s) : r.IsInLine s :=
  fun b hb => by
    rw [← Bool.not_eq_true]
    exact fun hend => h b hb (r.control b hend)

private theorem isWhole_field {name value : Text} (hn : r.IsInLine name) (hv : r.IsInLine value) :
    IsWhole r (name ++ ": ".toList ++ value) := by
  have hcolon : r.IsInLine ": ".toList := isInLine_of_visible (by decide)
  refine ⟨by simp, ?_⟩
  rw [LineEnds.isInLine_append, LineEnds.isInLine_append]
  exact ⟨⟨hn, hcolon⟩, hv⟩

private theorem cut_parts (sep : Char) (s : Text) :
    (Text.cut sep s).1 <+: s ∧ ∀ t, (Text.cut sep s).2 = some t → t <:+ s := by
  induction s with
  | nil => simp [Text.cut]
  | cons c s ih =>
    rw [Text.cut]
    split
    · exact ⟨List.nil_prefix, fun t ht => by cases ht; exact List.suffix_cons c s⟩
    · exact ⟨List.cons_prefix_cons.mpr ⟨rfl, ih.1⟩,
        fun t ht => (ih.2 t ht).trans (List.suffix_cons c s)⟩

/-- What is cut out of a text in one line is in one line. -/
theorem isInLine_of_part {a s : Text} (h : a <:+: s) (hs : r.IsInLine s) : r.IsInLine a := by
  obtain ⟨p, q, rfl⟩ := h
  exact ((LineEnds.isInLine_append.mp ((LineEnds.isInLine_append.mp hs).1)).2)

private theorem isInLine_parse {s : Text} {f : HeaderField} (h : HeaderField.parse? s = some f)
    (hs : r.IsInLine s) : r.IsInLine f.name ∧ r.IsInLine f.value := by
  obtain ⟨-, hrest⟩ := cut_parts ' ' s
  unfold HeaderField.parse? at h
  split at h
  · cases h
  next mark rest hcut =>
  obtain ⟨hname, hvalue⟩ := cut_parts ' ' rest
  have hr : r.IsInLine rest := isInLine_of_part (hrest rest (by rw [hcut])).isInfix hs
  have hboth : r.IsInLine (Text.cut ' ' rest).1 ∧ r.IsInLine ((Text.cut ' ' rest).2.getD []) := by
    refine ⟨isInLine_of_part hname.isInfix hr, ?_⟩
    cases hv : (Text.cut ' ' rest).2 with
    | none => exact fun b hb => absurd hb List.not_mem_nil
    | some t => exact isInLine_of_part (hvalue t hv).isInfix hr
  dsimp only at h
  split at h
  · cases h
    exact hboth
  split at h
  · cases h
    exact hboth
  · cases h

/-! ### What events add -/

/-- A block in the making all of whose lines are read as they were meant. -/
structure Raw.IsReadable (r : LineEnds) (b : Raw) : Prop where
  contentType : r.IsInLine b.contentType
  fields : ∀ f ∈ b.fields, IsWhole r f.text

/-- Fields are added behind some of those that stand there. -/
theorem Raw.IsReadable.add {b : Raw} (h : b.IsReadable r) {kept : List RawField}
    (hkept : ∀ f ∈ kept, f ∈ b.fields) {f : RawField} (hf : IsWhole r f.text) :
    Raw.IsReadable r { b with fields := kept ++ [f] } := by
  refine ⟨h.contentType, fun g hg => ?_⟩
  rcases List.mem_append.mp hg with hg | hg
  · exact h.fields g (hkept g hg)
  · obtain rfl := List.mem_singleton.mp hg
    exact hf

/-- **One event.** A tame event leaves a block readable, and so does one that does not show. -/
theorem Raw.IsReadable.step {b : Raw} (h : b.IsReadable r) {e : Event}
    (he : IsShown e → IsTame r e) : (b.step e).IsReadable r := by
  unfold Raw.step
  split
  · next hkey => exact ⟨(he (.inl hkey)).value, h.fields⟩
  split
  · next hkey =>
    have ht := he (.inr (.inl hkey))
    split
    · exact h.add (fun f hf => hf) ⟨ht.ne_nil hkey, ht.value⟩
    · next f hparse =>
      obtain ⟨hname, hvalue⟩ := isInLine_parse hparse ht.value
      refine h.add (fun g hg => ?_) (isWhole_field hname hvalue)
      split at hg
      · exact (List.mem_filter.mp hg).1
      · exact hg
  split
  · exact h
  · next hkey =>
    have ht := he (.inr (.inr (by simpa using hkey)))
    exact h.add (fun f hf => hf) (isWhole_field ht.key ht.value)

/-- **All events.** Tame events give a readable block. -/
theorem isReadable_block {events : List Event} (h : ∀ e ∈ events, IsShown e → IsTame r e) :
    (block events).IsReadable r := by
  have hfold : ∀ b : Raw, b.IsReadable r → (events.foldl Raw.step b).IsReadable r := by
    induction events with
    | nil => exact fun b hb => hb
    | cons e events ih =>
      obtain ⟨he, hevents⟩ := List.forall_mem_cons.mp h
      exact fun b hb => ih hevents _ (hb.step he)
  exact hfold {} ⟨isInLine_of_visible (by decide), nofun⟩

private theorem isWhole_of_isReadable {events : List Event} (h : (block events).IsReadable r) :
    ∀ l ∈ blockLines events, IsWhole r l := by
  have htype : r.IsInLine "Content-type: ".toList := isInLine_of_visible (by decide)
  refine List.forall_mem_cons.mpr ⟨⟨by simp, ?_⟩, fun l hl => ?_⟩
  · exact LineEnds.isInLine_append.mpr ⟨htype, h.contentType⟩
  · obtain ⟨f, hf, rfl⟩ := List.mem_map.mp hl
    exact h.fields f hf

/-! ### Reading the block -/

private theorem encode_ne_nil {l : Text} : Utf8.encode l ≠ [] ↔ l ≠ [] := by
  cases l with
  | nil => simp [Utf8.encode]
  | cons c l =>
    obtain ⟨b, w, hb⟩ := (Utf8.spells_encodeChar c).exists_cons
    rw [Utf8.encode_cons, hb]
    simp

/-- **When a header block can be misread.** For whatever bytes end a line for a reader: it finds
the content type, the fields that are kept and then exactly the body if and only if none of these
lines holds a line end and none is empty. So it is whenever the events that show hold no line
ends, and those that describe a field are not empty. -/
theorem readBlock_raw (r : LineEnds) (events : List Event) :
    (∀ body, r.readBlock (Utf8.encode (raw events) ++ body) =
        some ((blockLines events).map Utf8.encode, body) ↔
      ∀ l ∈ blockLines events, IsWhole r l) ∧
    ((∀ e ∈ events, IsShown e → IsTame r e) → ∀ l ∈ blockLines events, IsWhole r l) := by
  refine ⟨fun body => ⟨fun h l hl => ?_, fun h => ?_⟩,
    fun h => isWhole_of_isReadable (isReadable_block h)⟩
  · have hread := LineEnds.of_mem_linesFrom (by simp) h (Utf8.encode l) (List.mem_map_of_mem hl)
    exact ⟨encode_ne_nil.mp hread.1, hread.2⟩
  · rw [encode_raw]
    refine LineEnds.readBlock_lines (fun l hl => ?_) body
    obtain ⟨t, ht, rfl⟩ := List.mem_map.mp hl
    exact ⟨encode_ne_nil.mpr (h t ht).1, (h t ht).2⟩

/-- Events that show and one that does not. -/
def someEvents : List Event :=
  [⟨"mime-type".toList, "text/plain".toList⟩, ⟨"error-message".toList, "a\nb".toList⟩,
   ⟨"header-field".toList, "true A b c".toList⟩, ⟨"X".toList, []⟩]

/-- A newline in an event that does not show is no harm. -/
theorem readBlock_someEvents :
    (∀ e ∈ someEvents, IsShown e → IsTame .newlines e) ∧
    LineEnds.newlines.readBlock (Utf8.encode (raw someEvents) ++ [newline, 7]) =
      some ((blockLines someEvents).map Utf8.encode, [newline, 7]) := by
  have htame : ∀ e ∈ someEvents, IsShown e → IsTame .newlines e := by
    simp only [someEvents, List.forall_mem_cons]
    refine ⟨fun _ => ⟨by decide, by decide, by decide⟩, fun h => absurd h (by decide),
      fun _ => ⟨by decide, by decide, by decide⟩, fun _ => ⟨by decide, by decide, by decide⟩,
      by simp⟩
  obtain ⟨hread, hwhole⟩ := readBlock_raw .newlines someEvents
  exact ⟨htame, (hread _).mpr (hwhole htame)⟩

/-- **A header block is split.** A newline in a content type adds a header, and so does a carriage
return in a field for a reader that takes it as the end of a line; an empty `header-field` ends the
header before the fields behind it. -/
theorem split_block :
    (blockLines [⟨"mime-type".toList, "text/html\nX: y".toList⟩]).length = 1 ∧
    LineEnds.newlines.readBlock
        (Utf8.encode (raw [⟨"mime-type".toList, "text/html\nX: y".toList⟩])) =
      some (["Content-type: text/html".toList, "X: y".toList].map Utf8.encode, []) ∧
    (blockLines [⟨"A".toList, "b\rX: y".toList⟩]).length = 2 ∧
    LineEnds.anyReturn.readBlock (Utf8.encode (raw [⟨"A".toList, "b\rX: y".toList⟩])) =
      some (["Content-type: text/html".toList, "A: b".toList, "X: y".toList].map Utf8.encode, []) ∧
    (blockLines [⟨"header-field".toList, []⟩, ⟨"A".toList, "b".toList⟩]).length = 3 ∧
    LineEnds.newlines.readBlock
        (Utf8.encode (raw [⟨"header-field".toList, []⟩, ⟨"A".toList, "b".toList⟩])) =
      some (["Content-type: text/html".toList].map Utf8.encode,
        Utf8.encode "A: b\n\n".toList) := by
  decide

end Header

end ServerPages
