import HostMonitoring.Telemetry.WriterRuns

namespace HostMonitoring.Telemetry

open HostMonitoring.Framework
open HostMonitoring.Store

/-- What may become of a call: one that has returned stays as it is, and a store error it returns
is the answer it was given. -/
structure Call.Becomes (call call' : Call) : Prop where
  write : call'.write = call.write
  phase : call'.phase = call.phase ∨ call.finished = false ∧
    ∀ e, call'.phase = .returned (.error (.store e)) → call.completion = .filled (.error e)

theorem Call.becomes_refl (call : Call) : call.Becomes call := ⟨rfl, Or.inl rfl⟩

theorem Call.Becomes.returned {call call' : Call} (h : call.Becomes call')
    (result : Except TelemetrySubmitError (Bool × DateTime)) (hr : call.phase = .returned result) :
    call'.phase = .returned result := by
  rcases h.phase with same | ⟨unfinished, _⟩
  · rw [same, hr]
  · simp [Call.finished, hr] at unfinished

theorem forall₂_modify {α : Type} {R : α → α → Prop} (refl : ∀ a, R a a) (l : List α) (i : Nat)
    (f : α → α) (h : ∀ a, l[i]? = some a → R a (f a)) : List.Forall₂ R l (l.modify i f) := by
  induction l generalizing i with
  | nil => simp
  | cons a l ih =>
    cases i with
    | zero =>
      simp only [List.modify_zero_cons]
      exact .cons (h a rfl) (List.forall₂_same.mpr fun b _ => refl b)
    | succ i =>
      simp only [List.modify_succ_cons]
      exact .cons (refl a) (ih i fun b hb => h b (by simpa using hb))

section
variable {calls calls' : List Call} (h : List.Forall₂ Call.Becomes calls calls')
include h

theorem becomes_get {i : Nat} {call : Call} (hc : calls[i]? = some call) :
    ∃ call', calls'[i]? = some call' ∧ call.Becomes call' := by
  obtain ⟨hi, rfl⟩ := List.getElem?_eq_some_iff.mp hc
  have hi' : i < calls'.length := h.length_eq ▸ hi
  exact ⟨calls'[i], List.getElem?_eq_getElem hi', h.get hi hi'⟩

theorem becomes_origin {i : Nat} {call' : Call} (hc : calls'[i]? = some call') :
    ∃ call, calls[i]? = some call ∧ call.Becomes call' := by
  obtain ⟨hi', rfl⟩ := List.getElem?_eq_some_iff.mp hc
  have hi : i < calls.length := h.length_eq ▸ hi'
  exact ⟨calls[i], List.getElem?_eq_getElem hi, h.get hi hi'⟩

end

/-- A step that is not a transaction, with the calls it found. -/
structure Advances (s s' : State) : Prop where
  calls : List.Forall₂ Call.Becomes s.calls s'.calls
  answers : s.answers <+: s'.answers
  db : s'.db = s.db
  outcomes : s'.outcomes = s.outcomes

namespace Advances

variable {s s' : State}

theorem of_eq (calls : s'.calls = s.calls) (answers : s'.answers = s.answers) (db : s'.db = s.db)
    (outcomes : s'.outcomes = s.outcomes) : Advances s s' where
  calls := calls ▸ List.forall₂_same.mpr fun call _ => call.becomes_refl
  answers := answers ▸ List.prefix_refl _
  db := db
  outcomes := outcomes

theorem setPhase {i : Nat} {call : Call} {phase : Phase} (hc : s.calls[i]? = some call)
    (unfinished : call.finished = false)
    (own : ∀ e, phase = .returned (.error (.store e)) → call.completion = .filled (.error e)) :
    Advances s (s.setPhase i phase) where
  calls := by
    apply forall₂_modify Call.becomes_refl
    intro call' hc'
    rw [hc] at hc'
    cases hc'
    exact ⟨rfl, Or.inr ⟨unfinished, own⟩⟩
  answers := List.prefix_refl _
  db := rfl
  outcomes := rfl

end Advances

section
variable {config : TelemetryWriterConfig} {s s' : State}

theorem callStep_advances {i : Nat} {call : Call} (hc : s.calls[i]? = some call) {move : CallMove}
    (h : callStep config s i call move = some s') : Advances s s' := by
  cases move with
  | reserve =>
    simp only [callStep] at h
    split at h
    · rename_i hp
      split_ifs at h
      cases h
      exact .setPhase hc (by simp [Call.finished, hp]) fun e he => by cases he
    · cases h
  | refuse =>
    simp only [callStep] at h
    split at h
    · rename_i hp
      split_ifs at h
      cases h
      exact .setPhase hc (by simp [Call.finished, hp]) fun e he => by cases he
    · cases h
  | enqueueTimeout =>
    simp only [callStep] at h
    split at h
    · rename_i hp
      cases h
      exact .setPhase hc (by simp [Call.finished, hp]) fun e he => by cases he
    · cases h
  | send =>
    simp only [callStep] at h
    split at h
    · rename_i hp
      cases h
      have moved : Advances s (s.setPhase i .awaiting) :=
        .setPhase hc (by simp [Call.finished, hp]) fun e he => by cases he
      exact ⟨moved.calls, moved.answers, rfl, rfl⟩
    · cases h
  | respond =>
    simp only [callStep] at h
    split at h
    · rename_i result hp hf
      cases h
      exact .setPhase hc (by simp [Call.finished, hp]) fun e he => by cases he
    · rename_i error hp hf
      cases h
      exact .setPhase hc (by simp [Call.finished, hp]) fun e he => by cases he; exact hf
    · rename_i hp hf
      cases h
      exact .setPhase hc (by simp [Call.finished, hp]) fun e he => by cases he
    · cases h
  | deadline =>
    simp only [callStep] at h
    split at h
    · rename_i hp
      cases h
      exact .setPhase hc (by simp [Call.finished, hp]) fun e he => by cases he
    · cases h
  | cancel =>
    simp only [callStep] at h
    split_ifs at h with hf
    cases h
    exact .setPhase hc (Bool.eq_false_iff.mpr hf) fun e he => by cases he

theorem observeShutdown_advances (s : State) : Advances s s.observeShutdown := by
  unfold State.observeShutdown
  split_ifs
  · exact .of_eq rfl rfl rfl rfl
  · exact .of_eq rfl rfl rfl rfl

theorem wake_advances (s : State) : Advances s s.wake := by
  unfold State.wake
  dsimp only
  split_ifs
  · exact .of_eq rfl rfl rfl rfl
  · exact .of_eq rfl rfl rfl rfl

theorem complete_advances (s : State) (i : Nat) (answer : Answer) :
    Advances s (s.complete i answer) := by
  unfold State.complete
  dsimp only
  split
  · refine ⟨?_, List.prefix_append _ _, rfl, rfl⟩
    apply forall₂_modify Call.becomes_refl
    exact fun call _ => ⟨rfl, Or.inl rfl⟩
  · exact ⟨List.forall₂_same.mpr fun call _ => call.becomes_refl, List.prefix_append _ _, rfl, rfl⟩

/-- Where the writer stands is nobody else's business. -/
theorem Advances.writer (h : Advances s s') (writer : Writer) : Advances s { s' with writer } :=
  ⟨h.calls, h.answers, h.db, h.outcomes⟩

theorem writerStep_advances {move : WriterMove}
    (other : ∀ boundary receivedAt faults, move ≠ .transact boundary receivedAt faults)
    (h : writerStep config s move = some s') : Advances s s' := by
  cases move with
  | proceed =>
    simp only [writerStep] at h
    split at h
    · cases h
      exact (observeShutdown_advances s).writer _
    · split_ifs at h
      · cases h
        exact (observeShutdown_advances s).writer _
      · cases h
        exact (observeShutdown_advances s).writer _
      · cases h
        exact .of_eq rfl rfl rfl rfl
    · rename_i answer q todo _
      cases h
      have given := complete_advances (s.count answer) q.call answer
      exact ⟨given.calls, given.answers, given.db, given.outcomes⟩
    · cases h
      exact .of_eq rfl rfl rfl rfl
    · rename_i q todo _
      cases h
      exact (complete_advances s q.call batchNotCommitted).writer _
    · cases h
      exact .of_eq rfl rfl rfl rfl
    · cases h
  | receive =>
    simp only [writerStep] at h
    split at h <;> cases h <;> exact .of_eq rfl rfl rfl rfl
  | «end» =>
    simp only [writerStep] at h
    split at h
    · split_ifs at h
      cases h
      exact .of_eq rfl rfl rfl rfl
    · split_ifs at h
      cases h
      exact .of_eq rfl rfl rfl rfl
    · split_ifs at h
      cases h
      exact .of_eq rfl rfl rfl rfl
    · cases h
  | flush =>
    simp only [writerStep] at h
    split at h
    · cases h
      exact .of_eq rfl rfl rfl rfl
    · cases h
  | wake =>
    simp only [writerStep] at h
    split at h
    · split_ifs at h
      cases h
      exact (wake_advances s).writer _
    · split_ifs at h
      cases h
      exact (wake_advances s).writer _
    · cases h
  | transact boundary receivedAt faults => exact absurd rfl (other _ _ _)

/-- What a call asked for and where it stands. -/
def Call.standing (call : Call) : ReportWrite × Phase := (call.write, call.phase)

theorem dropCompletion_keeps (s : State) (i : Nat) :
    (s.dropCompletion i).calls.map Call.standing = s.calls.map Call.standing := by
  apply List.ext_getElem?
  intro j
  simp only [State.dropCompletion, List.getElem?_map, List.getElem?_modify]
  cases s.calls[j]? with
  | none => rfl
  | some call =>
    simp only [Option.map_eq_map, Option.map_some, Option.some.injEq]
    split_ifs
    · obtain ⟨write, phase, completion⟩ := call
      cases completion with
      | «open» => rfl
      | filled answer => rfl
      | closed => rfl
    · rfl

theorem dropCompletions_keep (queued : List QueuedReport) (s : State) :
    (queued.foldl (fun s q => s.dropCompletion q.call) s).calls.map Call.standing =
      s.calls.map Call.standing ∧
    (queued.foldl (fun s q => s.dropCompletion q.call) s).answers = s.answers ∧
    (queued.foldl (fun s q => s.dropCompletion q.call) s).db = s.db ∧
    (queued.foldl (fun s q => s.dropCompletion q.call) s).outcomes = s.outcomes := by
  induction queued generalizing s with
  | nil => exact ⟨rfl, rfl, rfl, rfl⟩
  | cons q queued ih =>
    obtain ⟨calls, answers, db, outcomes⟩ := ih (s.dropCompletion q.call)
    exact ⟨calls.trans (dropCompletion_keeps s q.call), answers, db, outcomes⟩

theorem becomes_of_standing {calls calls' : List Call}
    (h : calls'.map Call.standing = calls.map Call.standing) :
    List.Forall₂ Call.Becomes calls calls' := by
  rw [← List.forall₂_eq_eq_eq, List.forall₂_map_left_iff, List.forall₂_map_right_iff] at h
  apply h.flip.imp
  intro call call' same
  obtain ⟨write, phase⟩ := Prod.mk.inj same
  exact ⟨write, Or.inl phase⟩

/-- A transaction ends, and no call hears of it yet. -/
theorem transacted_store (s : State) (o : Outcome) :
    List.Forall₂ Call.Becomes s.calls (s.transacted o).calls ∧
    (s.transacted o).answers = s.answers ∧ (s.transacted o).db = o.after ∧
    (s.transacted o).outcomes = s.outcomes ++ [o] := by
  unfold State.transacted
  dsimp only
  split
  · rename_i results _
    obtain ⟨calls, answers, db, outcomes⟩ := dropCompletions_keep (o.batch.drop results.length)
      { s with db := o.after, outcomes := s.outcomes ++ [o], writer := .answering (results.zip o.batch) }
    exact ⟨becomes_of_standing calls, answers, db, outcomes⟩
  · exact ⟨List.forall₂_same.mpr fun call _ => call.becomes_refl, rfl, rfl, rfl⟩

/-- A step other than a new call either is the end of a batch transaction or leaves the store as
it is. -/
theorem step_cases {move : Move} (own : ∀ write, move ≠ .submit write)
    (other : ∀ op, move ≠ .elsewhere op) (h : step config s move = some s') :
    ((∀ boundary receivedAt faults, move ≠ .writer (.transact boundary receivedAt faults)) ∧
      Advances s s') ∨
    ∃ boundary receivedAt faults batch, move = .writer (.transact boundary receivedAt faults) ∧
      s.writer = .persisting batch ∧
      s' = s.transacted ⟨batch, boundary, receivedAt, faults, s.db⟩ := by
  cases move with
  | submit write => exact absurd rfl (own write)
  | elsewhere op => exact absurd rfl (other op)
  | caller i move =>
    simp only [step] at h
    split at h
    · rename_i call hc
      exact Or.inl ⟨by simp, callStep_advances hc h⟩
    · cases h
  | dropHandles =>
    simp only [step] at h
    split_ifs at h
    cases h
    exact Or.inl ⟨by simp, .of_eq rfl rfl rfl rfl⟩
  | request =>
    cases h
    exact Or.inl ⟨by simp, .of_eq rfl rfl rfl rfl⟩
  | notify =>
    simp only [step] at h
    split_ifs at h
    cases h
    exact Or.inl ⟨by simp, .of_eq rfl rfl rfl rfl⟩
  | writer move =>
    cases move with
    | transact boundary receivedAt faults =>
      simp only [step, writerStep] at h
      split at h
      · rename_i batch hw
        cases h
        exact Or.inr ⟨boundary, receivedAt, faults, batch, rfl, hw, rfl⟩
      · cases h
    | _ =>
      simp only [step] at h
      exact Or.inl ⟨by simp, writerStep_advances (by simp) h⟩

end
end HostMonitoring.Telemetry
