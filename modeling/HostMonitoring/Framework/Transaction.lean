import Mathlib.Data.List.Basic

namespace HostMonitoring.Framework

/-- A transaction body. What it wrote stays in the working copy even when it fails. -/
structure Tx (σ ε α : Type) where
  run : σ → Except ε α × σ

/-- How a body leaves its transaction. -/
inductive Ending (ε α : Type) where
  | commit (a : α)
  | rollback (r : Except ε α)

/-- What the statements that open and close a transaction meet; `none` is no fault. -/
structure Boundary (ε : Type) where
  begins : Option ε
  commits : Option ε
  rollsBack : Option ε

def Boundary.quiet (ε : Type) : Boundary ε := ⟨none, none, none⟩

namespace Tx

variable {σ ε α β : Type}

instance : Monad (Tx σ ε) where
  pure a := ⟨fun s => (.ok a, s)⟩
  bind x f := ⟨fun s =>
    match x.run s with
    | (.ok a, s₁) => (f a).run s₁
    | (.error e, s₁) => (.error e, s₁)⟩

theorem ext (x y : Tx σ ε α) (h : ∀ s, x.run s = y.run s) : x = y := by
  cases x
  cases y
  congr
  exact funext h

theorem run_bind (x : Tx σ ε α) (f : α → Tx σ ε β) (s : σ) :
    (x >>= f).run s = match x.run s with
      | (.ok a, s₁) => (f a).run s₁
      | (.error e, s₁) => (.error e, s₁) := rfl

theorem bind_pure_id (x : Tx σ ε α) : id <$> x = x := by
  apply ext
  intro s
  change (x >>= fun a => pure a).run s = x.run s
  rw [run_bind]
  obtain ⟨r, s₁⟩ := x.run s
  cases r <;> rfl

theorem bind_bind {γ : Type} (x : Tx σ ε α) (f : α → Tx σ ε β) (g : β → Tx σ ε γ) :
    x >>= f >>= g = x >>= fun a => f a >>= g := by
  apply ext
  intro s
  simp only [run_bind]
  obtain ⟨r, s₁⟩ := x.run s
  cases r <;> rfl

instance : LawfulMonad (Tx σ ε) :=
  LawfulMonad.mk' (Tx σ ε) bind_pure_id (fun _ _ => rfl) bind_bind

def fail (e : ε) : Tx σ ε α := ⟨fun s => (.error e, s)⟩

def query (fault : Option ε) (read : σ → α) : Tx σ ε α := ⟨fun s =>
  match fault with
  | some e => (.error e, s)
  | none => (.ok (read s), s)⟩

/-- A statement writes all of its rows or none. -/
def execute (fault : Option ε) (write : σ → Except ε (α × σ)) : Tx σ ε α := ⟨fun s =>
  match fault, write s with
  | some e, _ => (.error e, s)
  | none, .error e => (.error e, s)
  | none, .ok (a, s') => (.ok a, s')⟩

/-- The outcome of a body as a value; its writes stay. -/
def attempt (body : Tx σ ε α) : Tx σ ε (Except ε α) :=
  ⟨fun s => (.ok (body.run s).1, (body.run s).2)⟩

theorem bind_ok (x : Tx σ ε α) (f : α → Tx σ ε β) (s s' : σ) (b : β) :
    (x >>= f).run s = (.ok b, s') ↔
      ∃ a s₁, x.run s = (.ok a, s₁) ∧ (f a).run s₁ = (.ok b, s') := by
  rw [run_bind]
  obtain ⟨r, s₁⟩ := x.run s
  cases r with
  | error e => simp
  | ok a =>
    constructor
    · intro h
      exact ⟨a, s₁, rfl, h⟩
    · rintro ⟨a', s₁', h, hf⟩
      cases h
      exact hf

theorem pure_ok (a b : α) (s s' : σ) :
    (pure a : Tx σ ε α).run s = (.ok b, s') ↔ b = a ∧ s' = s := by
  change (Except.ok a, s) = (Except.ok b, s') ↔ _
  simp only [Prod.mk.injEq, Except.ok.injEq]
  exact and_congr eq_comm eq_comm

theorem fail_ok (e : ε) (b : α) (s s' : σ) : ¬(fail e : Tx σ ε α).run s = (.ok b, s') := by
  simp [fail]

theorem query_ok (fault : Option ε) (read : σ → α) (b : α) (s s' : σ) :
    (query fault read).run s = (.ok b, s') ↔ fault = none ∧ b = read s ∧ s' = s := by
  cases fault with
  | some e => simp [query]
  | none =>
    simp only [query, Prod.mk.injEq, Except.ok.injEq, true_and]
    exact and_congr eq_comm eq_comm

theorem execute_ok (fault : Option ε) (write : σ → Except ε (α × σ)) (b : α) (s s' : σ) :
    (execute fault write).run s = (.ok b, s') ↔ fault = none ∧ write s = .ok (b, s') := by
  cases fault with
  | some e => simp [execute]
  | none =>
    cases h : write s with
    | error e => simp [execute, h]
    | ok r => simp [execute, h, Prod.ext_iff]

/-- The body does not fail from this state. -/
def Answers (body : Tx σ ε α) (s : σ) : Prop := ∃ a s', body.run s = (.ok a, s')

theorem answers_pure (a : α) (s : σ) : Answers (pure a : Tx σ ε α) s := ⟨a, s, rfl⟩

theorem answers_bind (x : Tx σ ε α) (f : α → Tx σ ε β) (s s₁ : σ) (a : α)
    (first : x.run s = (.ok a, s₁)) (rest : Answers (f a) s₁) : Answers (x >>= f) s := by
  obtain ⟨b, s', h⟩ := rest
  exact ⟨b, s', (bind_ok x f s s' b).mpr ⟨a, s₁, first, h⟩⟩

theorem attempt_ok (body : Tx σ ε α) (r : Except ε α) (s s' : σ) :
    (attempt body).run s = (.ok r, s') ↔ body.run s = (r, s') := by
  simp [attempt, Prod.ext_iff]

/-- Runs a body in a transaction of its own. An early exit drops the open
transaction, which rolls it back. -/
def transact (boundary : Boundary ε) (body : Tx σ ε (Ending ε α)) (s : σ) : Except ε α × σ :=
  match boundary.begins with
  | some e => (.error e, s)
  | none =>
    match body.run s with
    | (.error e, _) => (.error e, s)
    | (.ok (.rollback r), _) =>
      match boundary.rollsBack with
      | some e => (.error e, s)
      | none => (r, s)
    | (.ok (.commit a), s') =>
      match boundary.commits with
      | some e => (.error e, s)
      | none => (.ok a, s')

/-- A transaction fails or rolls back and changes nothing, or answers what its
body committed. -/
theorem transact_cases (boundary : Boundary ε) (body : Tx σ ε (Ending ε α)) (s s' : σ)
    (r : Except ε α) (h : transact boundary body s = (r, s')) :
    ((∃ e, r = .error e) ∧ s' = s) ∨
    ((∃ w, body.run s = (.ok (.rollback r), w)) ∧ s' = s) ∨
    ∃ a, r = .ok a ∧ body.run s = (.ok (.commit a), s') := by
  unfold transact at h
  cases hb : boundary.begins with
  | some e =>
    simp only [hb, Prod.mk.injEq] at h
    exact Or.inl ⟨⟨e, h.1.symm⟩, h.2.symm⟩
  | none =>
    rcases hs : body.run s with ⟨ending, w⟩
    cases ending with
    | error e =>
      simp only [hb, hs, Prod.mk.injEq] at h
      exact Or.inl ⟨⟨e, h.1.symm⟩, h.2.symm⟩
    | ok ending =>
      cases ending with
      | rollback r' =>
        cases hr : boundary.rollsBack with
        | some e =>
          simp only [hb, hs, hr, Prod.mk.injEq] at h
          exact Or.inl ⟨⟨e, h.1.symm⟩, h.2.symm⟩
        | none =>
          simp only [hb, hs, hr, Prod.mk.injEq] at h
          obtain ⟨rfl, rfl⟩ := h
          exact Or.inr (Or.inl ⟨⟨w, rfl⟩, rfl⟩)
      | commit a =>
        cases hc : boundary.commits with
        | some e =>
          simp only [hb, hs, hc, Prod.mk.injEq] at h
          exact Or.inl ⟨⟨e, h.1.symm⟩, h.2.symm⟩
        | none =>
          simp only [hb, hs, hc, Prod.mk.injEq] at h
          obtain ⟨rfl, rfl⟩ := h
          exact Or.inr (Or.inr ⟨a, rfl, rfl⟩)

theorem transact_commit (body : Tx σ ε (Ending ε α)) (s s' : σ) (a : α)
    (h : body.run s = (.ok (.commit a), s')) : transact (.quiet ε) body s = (.ok a, s') := by
  simp [transact, Boundary.quiet, h]

theorem transact_rollback (body : Tx σ ε (Ending ε α)) (s s' : σ) (r : Except ε α)
    (h : body.run s = (.ok (.rollback r), s')) : transact (.quiet ε) body s = (r, s) := by
  simp [transact, Boundary.quiet, h]

theorem transact_error (boundary : Boundary ε) (body : Tx σ ε (Ending ε α)) (s s' : σ) (e : ε)
    (h : transact boundary body s = (.error e, s')) : s' = s := by
  obtain ⟨_, rfl⟩ | ⟨_, rfl⟩ | ⟨a, ha, _⟩ := transact_cases boundary body s s' _ h
  · rfl
  · rfl
  · cases ha

/-- Runs a body inside an open transaction: a failed body's writes are undone and
its error becomes a value. -/
def savepoint (boundary : Boundary ε) (body : Tx σ ε α) : Tx σ ε (Except ε α) := ⟨fun s =>
  match boundary.begins with
  | some e => (.error e, s)
  | none =>
    match body.run s with
    | (.ok a, s') =>
      match boundary.commits with
      | some e => (.error e, s')
      | none => (.ok (.ok a), s')
    | (.error e, s') =>
      match boundary.rollsBack with
      | some e' => (.error e', s')
      | none => (.ok (.error e), s)⟩

/-- A body that commits when it succeeds and rolls back when it fails. -/
def commitOrRollback (body : Tx σ ε α) : Tx σ ε (Ending ε α) := do
  match ← attempt body with
  | .ok a => return .commit a
  | .error e => return .rollback (.error e)

theorem transact_commitOrRollback (body : Tx σ ε α) (s : σ) :
    transact (.quiet ε) (commitOrRollback body) s =
      match body.run s with
      | (.ok a, s') => (.ok a, s')
      | (.error e, _) => (.error e, s) := by
  rcases h : body.run s with ⟨r, s'⟩
  have ha : (attempt body).run s = (.ok r, s') := (attempt_ok body r s s').mpr h
  cases r with
  | ok a =>
    have hb : (commitOrRollback body).run s = (.ok (.commit a), s') :=
      (bind_ok _ _ _ _ _).mpr ⟨_, _, ha, rfl⟩
    simp [transact, Boundary.quiet, hb]
  | error e =>
    have hb : (commitOrRollback body).run s = (.ok (.rollback (.error e)), s') :=
      (bind_ok _ _ _ _ _).mpr ⟨_, _, ha, rfl⟩
    simp [transact, Boundary.quiet, hb]

/-- A savepoint that was closed without a fault did what the body's own transaction does. -/
theorem savepoint_ok (boundary : Boundary ε) (body : Tx σ ε α) (r : Except ε α) (s s' : σ)
    (h : (savepoint boundary body).run s = (.ok r, s')) :
    transact (.quiet ε) (commitOrRollback body) s = (r, s') := by
  rw [transact_commitOrRollback]
  unfold savepoint at h
  cases hb : boundary.begins with
  | some e => simp [hb] at h
  | none =>
    simp only [hb] at h
    rcases hs : body.run s with ⟨r', w⟩
    cases r' with
    | ok a =>
      cases hc : boundary.commits with
      | some e => simp [hs, hc] at h
      | none => simpa [hs, hc, Prod.ext_iff] using h
    | error e =>
      cases hr : boundary.rollsBack with
      | some e' => simp [hs, hr] at h
      | none => simpa [hs, hr, Prod.ext_iff] using h

/-- Runs the items one after another, each on what the one before it left. -/
def oneByOne (run : β → σ → Except ε α × σ) : List β → σ → List (Except ε α) × σ
  | [], s => ([], s)
  | b :: bs, s =>
    let (r, s₁) := run b s
    let (rs, s') := oneByOne run bs s₁
    (r :: rs, s')

/-- Savepoints inside one transaction give what separate transactions give. -/
theorem savepoints_oneByOne (boundary : β → Boundary ε) (body : β → Tx σ ε α) (items : List β)
    (rs : List (Except ε α)) (s s' : σ)
    (h : (items.mapM fun b => savepoint (boundary b) (body b)).run s = (.ok rs, s')) :
    oneByOne (fun b => transact (.quiet ε) (commitOrRollback (body b))) items s = (rs, s') := by
  induction items generalizing rs s with
  | nil =>
    rw [List.mapM_nil, pure_ok] at h
    rw [h.1, h.2]
    rfl
  | cons b items ih =>
    rw [List.mapM_cons, bind_ok] at h
    obtain ⟨r, s₁, hr, h⟩ := h
    rw [bind_ok] at h
    obtain ⟨rs', s₂, hrs, h⟩ := h
    rw [pure_ok] at h
    obtain ⟨rfl, rfl⟩ := h
    simp only [oneByOne, savepoint_ok _ _ _ _ _ hr, ih _ _ hrs]

theorem oneByOne_preserves_mem (P : σ → Prop) (run : β → σ → Except ε α × σ) (items : List β)
    (step : ∀ b ∈ items, ∀ s, P s → P (run b s).2) (s : σ) (h : P s) :
    P (oneByOne run items s).2 := by
  induction items generalizing s with
  | nil => exact h
  | cons b items ih =>
    apply ih
    · intro b' hb'
      exact step b' (List.mem_cons_of_mem b hb')
    · exact step b List.mem_cons_self s h

theorem oneByOne_preserves (P : σ → Prop) (run : β → σ → Except ε α × σ)
    (step : ∀ b s, P s → P (run b s).2) (items : List β) (s : σ) (h : P s) :
    P (oneByOne run items s).2 :=
  oneByOne_preserves_mem P run items (fun b _ => step b) s h

/-- What one item brings about and all of them keep is there in the end. -/
theorem oneByOne_reaches (Q : σ → Prop) (run : β → σ → Except ε α × σ)
    (stays : ∀ b s, Q s → Q (run b s).2) (items : List β) (s : σ) (k : Nat) (b : β) (r : Except ε α)
    (hb : items[k]? = some b) (hr : (oneByOne run items s).1[k]? = some r)
    (made : ∀ s₁, (run b s₁).1 = r → Q (run b s₁).2) : Q (oneByOne run items s).2 := by
  induction items generalizing s k with
  | nil => simp at hb
  | cons b' items ih =>
    cases k with
    | zero =>
      simp only [List.getElem?_cons_zero, Option.some.injEq] at hb
      subst hb
      simp only [oneByOne, List.getElem?_cons_zero, Option.some.injEq] at hr
      exact oneByOne_preserves Q run stays items _ (made s hr)
    | succ k =>
      simp only [oneByOne, List.getElem?_cons_succ] at hb hr ⊢
      exact ih _ k hb hr

/-- What one item answers from any state the items keep to, all of them answer in turn. -/
theorem oneByOne_results (P : σ → Prop) (Q : β → Except ε α → Prop) (run : β → σ → Except ε α × σ)
    (step : ∀ b s, P s → P (run b s).2) (answer : ∀ b s, P s → Q b (run b s).1) (items : List β)
    (s : σ) (h : P s) : items.Forall₂ Q (oneByOne run items s).1 := by
  induction items generalizing s with
  | nil => exact .nil
  | cons b items ih => exact .cons (answer b s h) (ih _ (step b s h))

theorem savepoint_error (boundary : Boundary ε) (body : Tx σ ε α) (e : ε) (s s' : σ)
    (h : (savepoint boundary body).run s = (.ok (.error e), s')) : s' = s :=
  transact_error _ _ s s' e (savepoint_ok boundary body _ s s' h)

/-- A step that changes nothing can be left out of a loop, with its result. -/
theorem mapM_skip (f : β → Tx σ ε α) (front back : List β) (b : β) (r : α)
    (frontResults backResults : List α) (s s' : σ)
    (idle : ∀ s₁ s₂, (f b).run s₁ = (.ok r, s₂) → s₂ = s₁)
    (length : front.length = frontResults.length)
    (h : ((front ++ b :: back).mapM f).run s = (.ok (frontResults ++ r :: backResults), s')) :
    ((front ++ back).mapM f).run s = (.ok (frontResults ++ backResults), s') := by
  induction front generalizing frontResults s with
  | nil =>
    rw [List.length_nil] at length
    rw [List.length_eq_zero_iff.mp length.symm] at h ⊢
    simp only [List.nil_append, List.mapM_cons, bind_ok, pure_ok] at h ⊢
    obtain ⟨r', s₁, hb, rs, s₂, hback, hr, rfl⟩ := h
    cases hr
    rw [← idle _ _ hb]
    exact hback
  | cons x front ih =>
    cases frontResults with
    | nil => cases length
    | cons y frontResults =>
      simp only [List.cons_append, List.mapM_cons, bind_ok, pure_ok] at h ⊢
      obtain ⟨y', s₁, hx, rs, s₂, hrest, hr, rfl⟩ := h
      cases hr
      exact ⟨y, s₁, hx, _, _, ih frontResults s₁ (Nat.succ.inj length) hrest, rfl, rfl⟩

theorem mapM_append_ok (f : β → Tx σ ε α) (xs ys : List β) (rs : List α) (s s' : σ) :
    ((xs ++ ys).mapM f).run s = (.ok rs, s') ↔ ∃ rs₁ rs₂ s₁, rs = rs₁ ++ rs₂ ∧
      (xs.mapM f).run s = (.ok rs₁, s₁) ∧ (ys.mapM f).run s₁ = (.ok rs₂, s') := by
  rw [List.mapM_append, bind_ok]
  constructor
  · rintro ⟨rs₁, s₁, hxs, h⟩
    rw [bind_ok] at h
    obtain ⟨rs₂, s₂, hys, h⟩ := h
    rw [pure_ok] at h
    obtain ⟨rfl, rfl⟩ := h
    exact ⟨rs₁, rs₂, s₁, rfl, hxs, hys⟩
  · rintro ⟨rs₁, rs₂, s₁, rfl, hxs, hys⟩
    refine ⟨rs₁, s₁, hxs, ?_⟩
    rw [bind_ok]
    exact ⟨rs₂, s', hys, rfl⟩

theorem mapM_length (f : β → Tx σ ε α) (xs : List β) (rs : List α) (s s' : σ)
    (h : (xs.mapM f).run s = (.ok rs, s')) : rs.length = xs.length := by
  induction xs generalizing rs s with
  | nil =>
    rw [List.mapM_nil, pure_ok] at h
    rw [h.1]
    rfl
  | cons x xs ih =>
    rw [List.mapM_cons, bind_ok] at h
    obtain ⟨r, s₁, _, h⟩ := h
    rw [bind_ok] at h
    obtain ⟨rest, s₂, hrest, h⟩ := h
    rw [pure_ok] at h
    obtain ⟨rfl, rfl⟩ := h
    rw [List.length_cons, List.length_cons, ih rest s₁ hrest]

end Tx
end HostMonitoring.Framework
