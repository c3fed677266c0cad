import ServerPages.Proofs.Request.Refusing

/-!
# Acceptable messages in pieces

Whether an acceptable message is received depends on the pieces in which it comes only so far as one
of its beginnings is given up (`Message.result_receive_iff`): it breaks off, or ends in an integer
that is too long. These are exactly the final refusals that are wrong (`Message.final_refusals`).
-/

namespace ServerPages

namespace Message

variable {d e p : Bytes} {env : Envelope} {f : Failure}

/-! ### Receiving -/

/-- The bytes are given up although they may be a beginning of an acceptable message. -/
def IsLost (p : Bytes) : Prop := BreaksOff p ∨ ∃ k, decode p = .error (.tooManyDigits k)

/-- A beginning of an accepted message that is not lost is accepted as the message or known to be
incomplete. -/
theorem decode_of_not_isLost (hw : decode (d ++ e) = .ok env) (h : ¬ IsLost d) :
    decode d = .ok env ∨ IsIncomplete (decode d) := by
  by_cases hinc : IsIncomplete (decode d)
  · exact .inr hinc
  cases hd : decode d with
  | error f =>
    rcases breaksOff_of_accepted hw hd hinc with hbreaks | ⟨k, rfl⟩
    · exact absurd (.inl hbreaks) h
    · exact absurd (.inr ⟨k, hd⟩) h
  | ok env' =>
    obtain ⟨t, -, -, -, ht, -⟩ := exists_object hw
    have heq := (decode_append hd ht).symm.trans hw
    cases heq
    exact .inl rfl

private theorem IsLost.exists_failure (h : IsLost p) :
    ∃ f, decode p = .error f ∧ ∀ cause, f ≠ .incomplete cause := by
  rcases h with h | ⟨k, hk⟩
  · obtain ⟨cause, hcause⟩ := h.exists_malformed
    exact ⟨_, hcause, fun _ => nofun⟩
  · exact ⟨_, hk, fun _ => nofun⟩

theorem not_isLost_of_isIncomplete (h : IsIncomplete (decode p)) : ¬ IsLost p := fun hlost => by
  obtain ⟨f, hf, hne⟩ := hlost.exists_failure
  obtain ⟨cause, hcause⟩ := h
  exact hne cause (Except.error.inj (hf.symm.trans hcause))

theorem not_isLost_of_ok (h : decode p = .ok env) : ¬ IsLost p := fun hlost => by
  obtain ⟨f, hf, -⟩ := hlost.exists_failure
  cases h.symm.trans hf

/-- Behind an accepted message nothing of a message is lost. -/
theorem not_isLost_append {q : Bytes} (hp : decode p = .ok env)
    (hw : decode (p ++ q ++ e) = .ok env) : ¬ IsLost (p ++ q) := by
  rcases decode_beginning hw with ⟨t, ht⟩ | hinc
  · exact not_isLost_of_ok (decode_append hp ht)
  · exact not_isLost_of_isIncomplete hinc

private theorem not_isLost_take {pieces : List Bytes} (hp : decode p = .ok env)
    (hw : decode (p ++ pieces.flatten) = .ok env) (k : Nat) :
    ¬ IsLost (p ++ (pieces.take k).flatten) := by
  refine not_isLost_append (e := (pieces.drop k).flatten) hp ?_
  rwa [List.append_assoc, ← List.flatten_append, List.take_append_drop]

/-- Behind what is known to be incomplete, the beginnings from the next piece on count. -/
theorem forall_not_isLost_cons (hp : IsIncomplete (decode p)) (b : Bytes) (pieces : List Bytes) :
    (∀ k, ¬ IsLost (p ++ ((b :: pieces).take k).flatten)) ↔
      ∀ k, ¬ IsLost (p ++ b ++ (pieces.take k).flatten) := by
  have hcons : ∀ k, p ++ ((b :: pieces).take (k + 1)).flatten = p ++ b ++ (pieces.take k).flatten :=
    fun k => by rw [List.take_succ_cons, List.flatten_cons, List.append_assoc]
  refine ⟨fun h k => hcons k ▸ h (k + 1), fun h k => ?_⟩
  cases k with
  | zero =>
    rw [List.take_zero, List.flatten_nil, List.append_nil]
    exact not_isLost_of_isIncomplete hp
  | succ k => exact hcons k ▸ h k

/-- Receiving the rest of an accepted message, of which a beginning has come. -/
theorem result_receiveFrom (got : Bytes) (attempts : Nat) {pieces : List Bytes}
    {rest : List Connection.Chunk} {env' : Envelope} (hd : decode (got ++ pieces.flatten) = .ok env)
    (hgot : IsIncomplete (decode got)) (hall : ∀ b ∈ pieces, b ≠ []) :
    (Connection.receiveFrom got attempts (pieces.map .data ++ rest)).result = .ok env' ↔
      env' = env ∧ ∀ k, ¬ IsLost (got ++ (pieces.take k).flatten) := by
  induction pieces generalizing got attempts with
  | nil =>
    obtain ⟨cause, hcause⟩ := hgot
    rw [List.flatten_nil, List.append_nil, hcause] at hd
    cases hd
  | cons b pieces ih =>
    rw [List.forall_mem_cons] at hall
    rw [List.flatten_cons, ← List.append_assoc] at hd
    rw [forall_not_isLost_cons hgot, List.map_cons, List.cons_append, Connection.receiveFrom]
    by_cases hlost : IsLost (got ++ b)
    -- receiving ends here, without a message
    · obtain ⟨f, hf, hne⟩ := hlost.exists_failure
      refine iff_of_false (fun h => ?_) fun h => h.2 0 (by simpa using hlost)
      rw [hf] at h
      cases f with
      | incomplete cause => exact hne cause rfl
      | malformed | misshapen | tooDeep | tooManyDigits => cases h
    rcases decode_of_not_isLost hd hlost with hok | hinc
    · rw [hok]
      exact ⟨fun h => ⟨(Except.ok.inj h).symm, not_isLost_take hok hd⟩, fun h => by rw [h.1]⟩
    · have hstep := ih (got ++ b) (attempts + 1) hd hinc hall.2
      obtain ⟨cause, hcause⟩ := id hinc
      rw [hcause]
      dsimp only
      rw [if_neg (by simpa using hall.1)]
      exact hstep

/-- What is of the wrong shape as a whole is not received, whatever comes behind it. -/
theorem exists_error_of_misshapen (got : Bytes) (attempts : Nat) {pieces : List Bytes}
    (rest : List Connection.Chunk) {t : Text} {issues : List ShapeIssue}
    (ht : Utf8.decode (got ++ pieces.flatten) = .ok t)
    (hd : decode (got ++ pieces.flatten) = .error (.misshapen issues))
    (hgot : IsIncomplete (decode got)) (hall : ∀ b ∈ pieces, b ≠ []) :
    ∃ e, (Connection.receiveFrom got attempts (pieces.map .data ++ rest)).result = .error e := by
  induction pieces generalizing got attempts with
  | nil =>
    obtain ⟨cause, hcause⟩ := hgot
    rw [List.flatten_nil, List.append_nil, hcause] at hd
    cases hd
  | cons b pieces ih =>
    rw [List.forall_mem_cons] at hall
    rw [List.flatten_cons, ← List.append_assoc] at ht hd
    rw [List.map_cons, List.cons_append, Connection.receiveFrom]
    cases hb : decode (got ++ b) with
    | ok env' => cases (decode_append hb ht).symm.trans hd
    | error f =>
      cases f with
      | incomplete cause =>
        dsimp only
        rw [if_neg (by simpa using hall.1)]
        exact ih (got ++ b) (attempts + 1) ht hd ⟨cause, hb⟩ hall.2
      | malformed | misshapen | tooDeep | tooManyDigits => exact ⟨_, rfl⟩

/-- **Pieces.** An accepted message, and no other one, is received from its pieces exactly if no
beginning that is made of the first of them is lost. -/
theorem result_receive_iff {pieces : List Bytes} (rest : List Connection.Chunk) (env' : Envelope)
    (hall : ∀ b ∈ pieces, Connection.IsPiece b) (hd : decode pieces.flatten = .ok env) :
    (Connection.receive true (pieces.map .data ++ rest)).result = .ok env' ↔
      env' = env ∧ ∀ k, ¬ IsLost (pieces.take k).flatten := by
  rw [Connection.receive_pieces hall]
  exact result_receiveFrom [] 0 hd ⟨_, rfl⟩ fun b hb => (hall b hb).1

/-- **Final refusals.** A message that is refused for good is a beginning of an acceptable one
exactly if it breaks off. So an accepted message, and no other one, is received from its pieces
exactly if no beginning that is made of the first of them breaks off or is given up for an integer
that is too long. -/
theorem final_refusals (d : Bytes) (pieces : List Bytes) :
    (∀ f : Failure, decode d = .error f → f.IsFinal →
      ((∃ e env, decode (d ++ e) = .ok env) ↔ BreaksOff d)) ∧
    ((∀ b ∈ pieces, Connection.IsPiece b) → ∀ env env' : Envelope, decode pieces.flatten = .ok env →
      ((Connection.receive true (pieces.map .data)).result = .ok env' ↔
        env' = env ∧ ∀ k, ¬ IsLost (pieces.take k).flatten)) := by
  refine ⟨fun f hd hf => accepted_append_iff hd hf, fun hall env env' hd => ?_⟩
  have hreceive := result_receive_iff [] env' hall hd
  rwa [List.append_nil] at hreceive

/-- A closing bracket is refused for good, and rightly so; the pieces of an empty object are
received. -/
theorem final_refusals_bracket :
    (∃ cause, decode (Utf8.encode [']']) = .error (.malformed cause)) ∧
      (¬ ∃ e env, decode (Utf8.encode [']'] ++ e) = .ok env) ∧
      (Connection.receive true ([Utf8.encode ['\x7b'], Utf8.encode ['\x7d']].map .data)).result =
        .ok {} := by
  have hread : Json.read [']'] = .error (.refused .expectingValue [']']) := rfl
  have hd : decode (Utf8.encode [']']) = .error (.malformed (.json .expectingValue ⟨1, 1, 0⟩)) :=
    decode_of_refused (t := [']']) (Utf8.decode_encode _) hread
  obtain ⟨hfinal, hpieces⟩ := final_refusals (Utf8.encode [']'])
    [Utf8.encode ['\x7b'], Utf8.encode ['\x7d']]
  refine ⟨⟨_, hd⟩, ?_, ?_⟩
  · rw [hfinal _ hd ⟨rfl, fun _ => nofun⟩]
    rintro ⟨t, s, rest, ht, hs, -⟩
    obtain rfl := Except.ok.inj (ht.symm.trans (Utf8.decode_encode [']']))
    cases hs
  · have hempty : decode (Utf8.encode ['\x7b'] ++ Utf8.encode ['\x7d']) = .ok {} := rfl
    refine (hpieces (by decide) {} {} hempty).mpr ⟨rfl, fun k => ?_⟩
    match k with
    | 0 => exact not_isLost_of_isIncomplete ⟨_, rfl⟩
    | 1 =>
      have hobject := Json.read_object (s := []) (fun _ => nofun)
      rw [Json.spacedMembers_nil rfl] at hobject
      exact not_isLost_of_isIncomplete ⟨_, incomplete_of_refused rfl hobject rfl⟩
    | k + 2 =>
      rw [List.take_of_length_le (by simp)]
      exact not_isLost_of_ok hempty

/-! ### An object with a constant -/

/-- An object that stops behind the first letter of a constant. -/
def stopped : Text := "\x7b\"x\": N".toList

/-- What completes it. -/
def completion : Text := "aN\x7d".toList

private theorem read_stopped : Json.read stopped = .error (.refused .expectingValue ['N']) :=
  Json.read_member_error ['x'] " N".toList (by decide) rfl

private theorem read_completed :
    Json.read (stopped ++ completion) = .ok (.object [([.char 'x'], .real .nan)], []) :=
  Json.read_member ['x'] " NaN\x7d".toList (by decide) rfl

/-- **A message is given up.** An object that stops behind the first letter of a constant is refused
for good, although the next bytes make it an acceptable message. -/
theorem given_up_stopped : (∃ cause, decode (Utf8.encode stopped) = .error (.malformed cause)) ∧
    decode (Utf8.encode stopped ++ Utf8.encode completion) = .ok {} := by
  refine ⟨⟨_, decode_of_refused (t := stopped) (Utf8.decode_encode stopped) read_stopped⟩, ?_⟩
  rw [← Utf8.encode_append]
  exact decode_of_read (t := stopped ++ completion) (Utf8.decode_encode _) read_completed

end Message

end ServerPages
