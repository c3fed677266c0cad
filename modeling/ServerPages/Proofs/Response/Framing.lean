import Mathlib.Data.List.Basic
import ServerPages.Dispatch
import ServerPages.Proofs.Text.Utf8

/-!
# Where a response's header ends

Whoever reads a response takes it line by line until a line says that the header is over; all that
follows is the body.  A page says what stands in the header, and what it says may come from a
client, so nothing that an event holds may end a line.

In the structured form each line is cut at its first space into a key and a value.  The main
statement is that reading undoes writing, whatever the events and the body are
(`Header.readStructured_encode`).
-/

namespace ServerPages

/-! ### Lines of bytes -/

/-- The byte that ends a line. -/
def newline : UInt8 := 10

/-- The lines of bytes before the first line that equals `last`, and what follows that line;
`line` is what has been read of the line at hand, the latest byte first.  There is no such line if
the bytes end before one is complete. -/
def linesUntil (last line : Bytes) : Bytes → Option (List Bytes × Bytes)
  | [] => none
  | b :: s =>
    if b = newline then
      if line.reverse = last then some ([], s)
      else (linesUntil last [] s).map fun (lines, rest) => (line.reverse :: lines, rest)
    else linesUntil last (b :: line) s

section

variable {last line l : Bytes}

private theorem linesUntil_append (h : newline ∉ l) (s : Bytes) :
    linesUntil last line (l ++ s) = linesUntil last (l.reverse ++ line) s := by
  induction l generalizing line with
  | nil => rfl
  | cons b l ih =>
    have hb : b ≠ newline := fun hb => h (hb ▸ List.mem_cons_self)
    have hl : newline ∉ l := fun hl => h (List.mem_cons_of_mem b hl)
    rw [List.cons_append, linesUntil, if_neg hb, ih hl, List.reverse_cons, List.append_assoc]
    rfl

/-- The line that ends the reading. -/
theorem linesUntil_last (h : newline ∉ last) (s : Bytes) :
    linesUntil last [] (last ++ newline :: s) = some ([], s) := by
  rw [linesUntil_append h, linesUntil, if_pos rfl, if_pos (by simp)]

/-- Any other line. -/
theorem linesUntil_line (h : newline ∉ l) (hl : l ≠ last) (s : Bytes) :
    linesUntil last [] (l ++ newline :: s) =
      (linesUntil last [] s).map fun (lines, rest) => (l :: lines, rest) := by
  have hr : (l.reverse ++ []).reverse = l := by simp
  rw [linesUntil_append h, linesUntil, if_pos rfl, hr, if_neg hl]

end

/-! ### Bytes of a line -/

/-- No character but the newline has the newline's byte in it. -/
theorem newline_mem_encodeChar {c : Char} (h : newline ∈ Utf8.encodeChar c) : c = '\n' := by
  have hs := Utf8.spells_encodeChar c
  generalize Utf8.encodeChar c = bytes at h hs
  -- the bytes of a longer character all lie above those of the control characters
  have tail : ¬ Utf8.isTail newline = true := by decide
  have second (b : UInt8) : ¬ Utf8.isSecond b newline = true := by
    intro hb
    exact tail (Bool.and_eq_true_iff.mp hb).1
  cases hs with
  | one hb hc =>
    obtain rfl : newline = _ := List.mem_singleton.mp h
    exact hc.symm
  | two hlow hhigh h₂ hc =>
    rcases List.mem_pair.mp h with rfl | rfl
    · exact absurd (by decide : newline < 0xC2) hlow
    · exact absurd h₂ tail
  | three hlow hhigh h₂ h₃ hc =>
    simp only [List.mem_cons, List.not_mem_nil, or_false] at h
    rcases h with rfl | rfl | rfl
    · exact absurd (by decide : newline < 0xE0) hlow
    · exact absurd h₂ (second _)
    · exact absurd h₃ tail
  | four hlow hhigh h₂ h₃ h₄ hc =>
    simp only [List.mem_cons, List.not_mem_nil, or_false] at h
    rcases h with rfl | rfl | rfl | rfl
    · exact absurd (by decide : newline < 0xF0) hlow
    · exact absurd h₂ (second _)
    · exact absurd h₃ tail
    · exact absurd h₄ tail

theorem newline_not_mem_encode {s : Text} (h : '\n' ∉ s) : newline ∉ Utf8.encode s := by
  intro hmem
  obtain ⟨c, hc, hb⟩ := List.mem_flatMap.mp hmem
  exact h (newline_mem_encodeChar hb ▸ hc)

namespace Header

theorem encode_line (s : Text) : Utf8.encode (line s) = Utf8.encode s ++ [newline] :=
  Utf8.encode_append s ['\n']

/-! ### Cutting a line -/

theorem cut_append_cons {sep : Char} {k : Text} (h : sep ∉ k) (s : Text) :
    Text.cut sep (k ++ sep :: s) = (k, some s) := by
  induction k with
  | nil => simp [Text.cut]
  | cons c k ih =>
    have hc : c ≠ sep := fun hc => h (hc ▸ List.mem_cons_self)
    have hk : sep ∉ k := fun hk => h (List.mem_cons_of_mem c hk)
    rw [List.cons_append, Text.cut, if_neg hc, ih hk]

/-- The event that a line of the structured form stands for: its key is what stands before the
first space. -/
def eventOfLine? (s : Bytes) : Option Event :=
  match Utf8.decode s with
  | .error _ => none
  | .ok text =>
    match Text.cut ' ' text with
    | (_, none) => none
    | (key, some value) => some ⟨key, value⟩

/-- The line that ends a header of the structured form. -/
def endMark : Text := "end-header".toList

/-- What a reader of the structured form makes of a response: the events of the header, and the
body. -/
def readStructured (s : Bytes) : Option (List Event × Bytes) :=
  (linesUntil (Utf8.encode endMark) [] s).bind fun (lines, body) =>
    (lines.mapM eventOfLine?).map (·, body)

/-! ### Lines of the structured form -/

/-- The events that the structured form passes on, as they arrive: each white-space character of a
value has become a space. -/
def passedOn (events : List Event) : List Event :=
  (events.filter fun e => knownKeys.contains e.key).map fun e => ⟨e.key, sanitize e.value⟩

/-- An event fits on a line of the structured form: its key is one that a web server understands,
and the white space in its value is spaces. -/
structure OnLine (e : Event) : Prop where
  key_mem : e.key ∈ knownKeys
  eq_space : ∀ c ∈ e.value, Text.isBlank c = true → c = ' '

/-- The text of an event's line in the structured form. -/
def eventText (e : Event) : Text := e.key ++ ' ' :: e.value

/-- A key that a web server understands is one word. -/
theorem no_blank_of_known {k : Text} (h : k ∈ knownKeys) :
    sanitize k = k ∧ ∀ c ∈ k, Text.isBlank c = false := by
  have hall : knownKeys.all (fun k => sanitize k = k ∧ k.all fun c => !Text.isBlank c) = true := by
    decide
  simpa using List.all_eq_true.mp hall k h

private theorem eq_space_of_mem_sanitize {c : Char} {s : Text} (h : c ∈ sanitize s)
    (hc : Text.isBlank c = true) : c = ' ' := by
  obtain ⟨d, hd, rfl⟩ := List.mem_map.mp h
  by_cases hb : Text.isBlank d = true
  · rw [if_pos hb]
  · rw [if_neg hb] at hc
    exact absurd hc hb

private theorem onLine_of_mem_passedOn {e : Event} {events : List Event} (h : e ∈ passedOn events) :
    OnLine e := by
  obtain ⟨e, he, rfl⟩ := List.mem_map.mp h
  have hkey : e.key ∈ knownKeys := by simpa using (List.mem_filter.mp he).2
  exact ⟨hkey, fun c hc hb => eq_space_of_mem_sanitize hc hb⟩

private theorem structured_eq (events : List Event) :
    structured events =
      (passedOn events).flatMap (fun e => line (eventText e)) ++ line endMark := by
  rw [structured, passedOn, List.flatMap_map]
  refine congrArg (· ++ line endMark) (List.flatMap_congr fun e he => ?_)
  have hkey : e.key ∈ knownKeys := by simpa using (List.mem_filter.mp he).2
  rw [(no_blank_of_known hkey).1, eventText]

/-- The white space in a line is spaces: no character of an event ends a line, for whichever
reader of lines. -/
theorem OnLine.eq_space_of_mem {e : Event} (h : OnLine e) {c : Char} (hc : c ∈ eventText e)
    (hb : Text.isBlank c = true) : c = ' ' := by
  rcases List.mem_append.mp hc with hc | hc
  · rw [(no_blank_of_known h.key_mem).2 c hc] at hb
    cases hb
  · rcases List.mem_cons.mp hc with rfl | hc
    · rfl
    · exact h.eq_space c hc hb

theorem OnLine.newline_not_mem {e : Event} (h : OnLine e) :
    newline ∉ Utf8.encode (eventText e) := by
  refine newline_not_mem_encode fun hn => ?_
  have : '\n' = ' ' := h.eq_space_of_mem hn rfl
  cases this

/-- No line of an event is the end mark, which holds no space. -/
theorem eventText_ne_endMark (e : Event) : Utf8.encode (eventText e) ≠ Utf8.encode endMark := by
  intro h
  have hd := congrArg Utf8.decode h
  rw [Utf8.decode_encode, Utf8.decode_encode] at hd
  have hspace : ' ' ∈ eventText e := List.mem_append_right _ List.mem_cons_self
  have hmark : ' ' ∈ endMark := Except.ok.inj hd ▸ hspace
  exact absurd hmark (by decide)

private theorem OnLine.eventOfLine?_encode {e : Event} (h : OnLine e) :
    eventOfLine? (Utf8.encode (eventText e)) = some e := by
  have hspace : ' ' ∉ e.key := fun hs => by
    have := (no_blank_of_known h.key_mem).2 ' ' hs
    cases this
  simp only [eventOfLine?, Utf8.decode_encode, eventText, cut_append_cons hspace]

/-! ### Reading what was written -/

/-- Events that fit on lines are read from their lines. -/
theorem readStructured_lines {es : List Event} (h : ∀ e ∈ es, OnLine e) (body : Bytes) :
    readStructured
        (Utf8.encode (es.flatMap (fun e => line (eventText e)) ++ line endMark) ++ body) =
      some (es, body) := by
  induction es with
  | nil =>
    have hmark : newline ∉ Utf8.encode endMark := newline_not_mem_encode (by decide)
    rw [List.flatMap_nil, List.nil_append, encode_line, List.append_assoc, List.singleton_append,
      readStructured, linesUntil_last hmark]
    rfl
  | cons e es ih =>
    have he := h e List.mem_cons_self
    have hes := ih fun x hx => h x (List.mem_cons_of_mem e hx)
    rw [List.flatMap_cons, List.append_assoc, Utf8.encode_append, encode_line, List.append_assoc,
      List.append_assoc, List.singleton_append]
    -- the first line is taken off the lines, and its event off the events
    rw [readStructured] at hes ⊢
    rw [linesUntil_line he.newline_not_mem (eventText_ne_endMark e)]
    generalize linesUntil _ _ _ = read at hes ⊢
    obtain ⟨⟨lines, rest⟩, rfl, hlines⟩ := Option.bind_eq_some_iff.mp hes
    obtain ⟨found, hfound, hpair⟩ := Option.map_eq_some_iff.mp hlines
    obtain ⟨rfl, rfl⟩ := Prod.mk.inj hpair
    show ((_ :: lines).mapM eventOfLine?).map (·, rest) = _
    rw [List.mapM_cons, he.eventOfLine?_encode, hfound]
    rfl

/-- **A structured header cannot be misread**: whatever the events and the body of a response are,
a reader of its lines finds the events that are passed on, in order, and then exactly the body.
Nor does any character of an event end a line for readers of other line ends: but for the newlines
behind the lines, the white space of a header is spaces. -/
theorem readStructured_structured (events : List Event) (body : Bytes) :
    readStructured (Utf8.encode (structured events) ++ body) = some (passedOn events, body) ∧
      ∃ lines : List Text, structured events = lines.flatMap line ∧
        ∀ l ∈ lines, ∀ c ∈ l, Text.isBlank c = true → c = ' ' := by
  have hline : ∀ e ∈ passedOn events, OnLine e := fun e he => onLine_of_mem_passedOn he
  rw [structured_eq]
  refine ⟨readStructured_lines hline body, (passedOn events).map eventText ++ [endMark], ?_, ?_⟩
  · rw [List.flatMap_append, List.flatMap_map, List.flatMap_singleton]
  · intro l hl c hc hb
    rcases List.mem_append.mp hl with hl | hl
    · obtain ⟨e, he, rfl⟩ := List.mem_map.mp hl
      exact (hline e he).eq_space_of_mem hc hb
    · obtain rfl : l = endMark := List.mem_singleton.mp hl
      have hmark : endMark.all (fun c => !Text.isBlank c) = true := rfl
      have hplain := List.all_eq_true.mp hmark c hc
      rw [hb] at hplain
      cases hplain

end Header

/-- What a page's answer tells a reader of the structured form: its events behind the first one,
and its body where the last status is that of success. -/
theorem Dispatcher.readStructured_response (request : Option Request) {p : Performance}
    {events : List Event} (hevents : p.finished.events = events.map Event.signal) :
    let told := opening request :: events
    Header.readStructured (response .structured request p).content = some (Header.passedOn told,
      if Header.status told = Event.statusOk then p.finished.body else []) := by
  intro told
  have hline : ∀ e ∈ Header.passedOn told, Header.OnLine e :=
    fun e he => Header.onLine_of_mem_passedOn he
  have htold : signals request p = told.map Event.signal := by
    rw [signals, hevents]
    rfl
  have hheader := Header.encode?_signals .structured told
  rw [← htold] at hheader
  rw [response_of_encode? hheader, htold, Header.statusOf_signals]
  simp only [Letter.ofText_inj, Header.text, Header.structured_eq, Event.statusOk]
  exact Header.readStructured_lines hline _

end ServerPages
