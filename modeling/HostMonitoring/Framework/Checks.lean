import Mathlib.Data.List.Basic

namespace HostMonitoring.Framework.Checks

variable {ε α : Type}

/-- One check of a chain that stops at the first failure. -/
def reject (bad : Prop) [Decidable bad] (message : ε) : Except ε Unit :=
  if bad then .error message else .ok ()

@[simp] theorem reject_ok (bad : Prop) [Decidable bad] (message : ε) (u : Unit) :
    reject bad message = .ok u ↔ ¬bad := by
  unfold reject
  split_ifs with h
  · simp [h]
  · simp [h]

/-- A check that names what must hold. -/
def ensure (good : Prop) [Decidable good] (message : ε) : Except ε Unit := reject (¬good) message

@[simp] theorem ensure_ok (good : Prop) [Decidable good] (message : ε) (u : Unit) :
    ensure good message = .ok u ↔ good := by
  rw [ensure, reject_ok, not_not]

theorem bind_ok {β : Type} (x : Except ε α) (f : α → Except ε β) (b : β) :
    (x >>= f) = .ok b ↔ ∃ a, x = .ok a ∧ f a = .ok b := by
  cases x with
  | error e => simp [bind, Except.bind]
  | ok a => simp [bind, Except.bind]

theorem check_bind_ok (x : Except ε Unit) (f : Unit → Except ε α) (a : α) :
    (x >>= f) = .ok a ↔ x = .ok () ∧ f () = .ok a := by
  rw [bind_ok]
  constructor
  · rintro ⟨⟨⟩, hx, hf⟩
    exact ⟨hx, hf⟩
  · exact fun h => ⟨(), h⟩

theorem pure_ok (a b : α) : (pure a : Except ε α) = .ok b ↔ b = a := by
  change Except.ok a = .ok b ↔ _
  rw [Except.ok.injEq]
  exact eq_comm

/-- A loop of checks passes when each of them does. -/
theorem forM_ok (xs : List α) (f : α → Except ε Unit) (u : Unit) :
    xs.forM f = .ok u ↔ ∀ x ∈ xs, f x = .ok () := by
  induction xs with
  | nil => simp [pure, Except.pure]
  | cons x xs ih =>
    change (f x >>= fun _ => xs.forM f) = .ok u ↔ _
    rw [check_bind_ok, ih, List.forall_mem_cons]

/-- A loop that carries a value passes only when each of its steps does. -/
theorem foldlM_ok_mem {β : Type} (f : β → α → Except ε β) (xs : List α) (b c : β)
    (h : xs.foldlM f b = .ok c) : ∀ x ∈ xs, ∃ b' c', f b' x = .ok c' := by
  induction xs generalizing b with
  | nil => simp
  | cons x xs ih =>
    rw [List.foldlM_cons, bind_ok] at h
    obtain ⟨b', first, others⟩ := h
    rw [List.forall_mem_cons]
    exact ⟨⟨b, b', first⟩, ih b' others⟩

theorem foldlM_congr {m : Type → Type} [Monad m] {β : Type} (f g : β → α → m β) (xs : List α)
    (b : β) (h : ∀ b, ∀ x ∈ xs, f b x = g b x) : xs.foldlM f b = xs.foldlM g b := by
  induction xs generalizing b with
  | nil => rfl
  | cons x xs ih =>
    rw [List.foldlM_cons, List.foldlM_cons, h b x List.mem_cons_self]
    congr
    funext b'
    exact ih b' fun b'' y hy => h b'' y (List.mem_cons_of_mem x hy)

/-- A loop inside a loop runs through the concatenated lists. -/
theorem foldlM_flatMap {m : Type → Type} [Monad m] [LawfulMonad m] {β γ : Type} (f : β → γ → m β)
    (g : α → List γ) (xs : List α) (b : β) :
    (xs.flatMap g).foldlM f b = xs.foldlM (fun b x => (g x).foldlM f b) b := by
  induction xs generalizing b with
  | nil => rfl
  | cons x xs ih =>
    rw [List.flatMap_cons, List.foldlM_append, List.foldlM_cons]
    congr
    funext b'
    exact ih b'

end HostMonitoring.Framework.Checks
