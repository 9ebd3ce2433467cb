import Mathlib.Control.Monad.Basic
import Mathlib.Logic.Function.Basic
import Mathlib.Logic.Relation

namespace HostMonitoring.Framework

/-- A program that asks the system for one answer after another. -/
inductive Program (O : Type) (A : O → Type) (α : Type) where
  | done (a : α)
  | call (o : O) (next : A o → Program O A α)

namespace Program

variable {O : Type} {A : O → Type} {α β : Type}

protected def bind : Program O A α → (α → Program O A β) → Program O A β
  | .done a, f => f a
  | .call o next, f => .call o fun a => (next a).bind f

instance : Monad (Program O A) where
  pure := .done
  bind := Program.bind

def ask (o : O) : Program O A (A o) := .call o .done

/-- The program alone on the system, every call answered at once. -/
def run {σ : Type} (answer : (o : O) → σ → A o × σ) : Program O A α → σ → α × σ
  | .done a, s => (a, s)
  | .call o next, s => (next (answer o s).1).run answer (answer o s).2

@[simp] theorem run_bind {σ : Type} (answer : (o : O) → σ → A o × σ) (p : Program O A α)
    (f : α → Program O A β) (s : σ) :
    (p.bind f).run answer s = (f (p.run answer s).1).run answer (p.run answer s).2 := by
  induction p generalizing s with
  | done a => rfl
  | call o next ih => exact ih _ _

/-- The first `n` calls of such a run: what is left of the program, and the system then. -/
def advance {σ : Type} (answer : (o : O) → σ → A o × σ) :
    Nat → Program O A α → σ → Program O A α × σ
  | 0, p, s => (p, s)
  | _ + 1, .done a, s => (.done a, s)
  | n + 1, .call o next, s => advance answer n (next (answer o s).1) (answer o s).2

end Program

/-- What a thread owes before a call and what it may count on after it, said of what it sees of
the system. -/
structure Contract (O : Type) (A : O → Type) (υ : Type) where
  requires : O → υ → Prop
  ensures : (o : O) → υ → A o → υ → Prop

namespace Program

variable {O : Type} {A : O → Type} {υ α β ε : Type} (C : Contract O A υ)

/-- Every call of the program is one it may make, and where it ends the postcondition holds. -/
def Meets (post : α → υ → Prop) : Program O A α → υ → Prop
  | .done a, v => post a v
  | .call o next, v => C.requires o v ∧ ∀ a v', C.ensures o v a v' → (next a).Meets post v'

variable {C}

theorem Meets.mono {post post' : α → υ → Prop} {p : Program O A α} {v : υ} (h : p.Meets C post v)
    (weaker : ∀ a v, post a v → post' a v) : p.Meets C post' v := by
  induction p generalizing v with
  | done a => exact weaker a v h
  | call o next ih => exact ⟨h.1, fun a v' he => ih a (h.2 a v' he)⟩

theorem Meets.bind {post : β → υ → Prop} {p : Program O A α} {f : α → Program O A β} {v : υ}
    (h : p.Meets C (fun a v' => (f a).Meets C post v') v) : (p.bind f).Meets C post v := by
  induction p generalizing v with
  | done a => exact h
  | call o next ih => exact ⟨h.1, fun a v' he => ih a (h.2 a v' he)⟩

theorem meets_ask {o : O} {post : A o → υ → Prop} {v : υ} (allowed : C.requires o v)
    (after : ∀ a v', C.ensures o v a v' → post a v') : (ask o : Program O A _).Meets C post v :=
  ⟨allowed, after⟩

end Program

/-- A program that may fail. -/
abbrev Fallible (O : Type) (A : O → Type) (ε α : Type) := ExceptT ε (Program O A) α

namespace Fallible

variable {O : Type} {A : O → Type} {υ α β ε : Type} {C : Contract O A υ}

def Meets (C : Contract O A υ) (post : Except ε α → υ → Prop) (x : Fallible O A ε α) (v : υ) :
    Prop := Program.Meets C post (ExceptT.run x) v

theorem Meets.mono {post post' : Except ε α → υ → Prop} {x : Fallible O A ε α} {v : υ}
    (h : Meets C post x v) (weaker : ∀ r v, post r v → post' r v) : Meets C post' x v :=
  Program.Meets.mono h weaker

/-- Both ways a step can end, before the rest. -/
theorem Meets.bind {post : Except ε β → υ → Prop} {x : Fallible O A ε α}
    {f : α → Fallible O A ε β} {v : υ} {mid : Except ε α → υ → Prop} (h : Meets C mid x v)
    (fails : ∀ e v', mid (.error e) v' → post (.error e) v')
    (goes : ∀ a v', mid (.ok a) v' → Meets C post (f a) v') : Meets C post (x >>= f) v := by
  apply Program.Meets.bind
  apply Program.Meets.mono h
  intro r v' hr
  cases r with
  | error e => exact fails e v' hr
  | ok a => exact goes a v' hr

def handle (x : Fallible O A ε α) (f : ε → Fallible O A ε α) : Fallible O A ε α :=
  ExceptT.mk do
    match ← x.run with
    | .ok a => return .ok a
    | .error e => (f e).run

end Fallible

/-- What holds when a step succeeds and when it fails. -/
def Ends {ε α υ : Type} (good : α → υ → Prop) (bad : υ → Prop) : Except ε α → υ → Prop
  | .ok a, v => good a v
  | .error _, v => bad v

namespace Fallible

variable {O : Type} {A : O → Type} {υ α β ε : Type} {C : Contract O A υ}
  {good : α → υ → Prop} {bad : υ → Prop} {v : υ}

abbrev Keeps (C : Contract O A υ) (good : α → υ → Prop) (bad : υ → Prop) (x : Fallible O A ε α)
    (v : υ) : Prop := Meets C (Ends good bad) x v

theorem keeps_pure {a : α} (h : good a v) : Keeps C good bad (pure a : Fallible O A ε α) v := h

theorem keeps_throw {e : ε} (h : bad v) : Keeps C good bad (throw e : Fallible O A ε α) v := h

theorem Keeps.bind {good' : β → υ → Prop} {x : Fallible O A ε α} {f : α → Fallible O A ε β}
    (h : Keeps C good bad x v) (goes : ∀ a v', good a v' → Keeps C good' bad (f a) v') :
    Keeps C good' bad (x >>= f) v :=
  Meets.bind h (fun _ _ he => he) goes

theorem keeps_handle {bad' : υ → Prop} {x : Fallible O A ε α} {f : ε → Fallible O A ε α}
    (h : Keeps C good bad x v) (fails : ∀ e v', bad v' → Keeps C good bad' (f e) v') :
    Keeps C good bad' (x.handle f) v := by
  apply Program.Meets.bind
  apply Program.Meets.mono h
  intro r v' hr
  cases r with
  | ok a => exact hr
  | error e => exact fails e v' hr

end Fallible

/-- A thread of a pool. A killed one only loses what it still holds. -/
inductive Thread (O : Type) (A : O → Type) where
  | running (p : Program O A Unit)
  | killed

/-- How a system answers the calls of its threads, takes back what a killed thread held, and
changes by itself. -/
structure World (τ O : Type) (A : O → Type) (σ : Type) where
  exec : τ → (o : O) → σ → A o → σ → Prop
  reap : τ → σ → σ → Prop
  outside : σ → σ → Prop

structure Pool (τ O : Type) (A : O → Type) (σ : Type) where
  threads : τ → Option (Thread O A)
  shared : σ

/-- A thread comes and goes on alone for a while. -/
def Pool.join {τ O σ : Type} {A : O → Type} [DecidableEq τ] (P : Pool τ O A σ) (t : τ)
    (answer : (o : O) → σ → A o × σ) (n : Nat) (p : Program O A Unit) : Pool τ O A σ :=
  ⟨Function.update P.threads t (some (.running (p.advance answer n P.shared).1)),
    (p.advance answer n P.shared).2⟩

theorem Pool.join_other {τ O σ : Type} {A : O → Type} [DecidableEq τ] (P : Pool τ O A σ) {t u : τ}
    (answer : (o : O) → σ → A o × σ) (n : Nat) (p : Program O A Unit) (h : u ≠ t) :
    (P.join t answer n p).threads u = P.threads u := Function.update_of_ne h _ _

namespace World

variable {τ O σ υ : Type} {A : O → Type} [DecidableEq τ] (W : World τ O A σ)
  (Startable : Program O A Unit → Prop)

/-- Any thread may go on, any may be killed, and new ones come at any time. -/
inductive Step : Pool τ O A σ → Pool τ O A σ → Prop where
  | spawn (threads : τ → Option (Thread O A)) (s : σ) (t : τ) (p : Program O A Unit) :
    threads t = none → Startable p →
      Step ⟨threads, s⟩ ⟨Function.update threads t (some (.running p)), s⟩
  | call (threads : τ → Option (Thread O A)) (s : σ) (t : τ) (o : O) (next : A o → Program O A Unit)
    (a : A o) (s' : σ) :
    threads t = some (.running (.call o next)) → W.exec t o s a s' →
      Step ⟨threads, s⟩ ⟨Function.update threads t (some (.running (next a))), s'⟩
  | kill (threads : τ → Option (Thread O A)) (s : σ) (t : τ) (p : Program O A Unit) :
    threads t = some (.running p) → Step ⟨threads, s⟩ ⟨Function.update threads t (some .killed), s⟩
  | reap (threads : τ → Option (Thread O A)) (s : σ) (t : τ) (s' : σ) :
    threads t = some .killed → W.reap t s s' → Step ⟨threads, s⟩ ⟨threads, s'⟩
  | outside (threads : τ → Option (Thread O A)) (s s' : σ) :
    W.outside s s' → Step ⟨threads, s⟩ ⟨threads, s'⟩

inductive Reachable (start : σ) : Pool τ O A σ → Prop where
  | start : Reachable start ⟨fun _ => none, start⟩
  | step (P Q : Pool τ O A σ) : Reachable start P → W.Step Startable P Q → Reachable start Q

/-- A run from one pool to another. -/
def Leads : Pool τ O A σ → Pool τ O A σ → Prop := Relation.ReflTransGen (W.Step Startable)

theorem Reachable.leads {W : World τ O A σ} {Startable : Program O A Unit → Prop} {start : σ}
    {P Q : Pool τ O A σ} (h : W.Reachable Startable start P) (run : W.Leads Startable P Q) :
    W.Reachable Startable start Q := by
  induction run with
  | refl => exact h
  | tail _ step ih => exact ih.step _ _ step

/-- What a step changes of the shared state. -/
theorem Step.shared {W : World τ O A σ} {Startable : Program O A Unit → Prop} {P Q : Pool τ O A σ}
    (h : W.Step Startable P Q) :
    Q.shared = P.shared ∨ (∃ t o a, W.exec t o P.shared a Q.shared) ∨
    (∃ t, W.reap t P.shared Q.shared) ∨ W.outside P.shared Q.shared := by
  cases h with
  | spawn threads s t p hn hp => exact Or.inl rfl
  | call threads s t o next a s' ht he => exact Or.inr (Or.inl ⟨t, o, a, he⟩)
  | kill threads s t p ht => exact Or.inl rfl
  | reap threads s t s' ht hr => exact Or.inr (Or.inr (Or.inl ⟨t, hr⟩))
  | outside threads s s' ho => exact Or.inr (Or.inr (Or.inr ho))

/-- A thread may go on while all others stand still. -/
theorem Reachable.advance {W : World τ O A σ} {Startable : Program O A Unit → Prop} {start : σ}
    (t : τ) (answer : (o : O) → σ → A o × σ)
    (answers : ∀ o s, W.exec t o s (answer o s).1 (answer o s).2) (n : Nat)
    (threads : τ → Option (Thread O A)) (p : Program O A Unit) (s : σ)
    (ht : threads t = some (.running p)) (h : W.Reachable Startable start ⟨threads, s⟩) :
    W.Reachable Startable start
      ⟨Function.update threads t (some (.running (p.advance answer n s).1)),
        (p.advance answer n s).2⟩ := by
  induction n generalizing threads p s with
  | zero =>
    have same : Function.update threads t (some (.running p)) = threads := by
      rw [← ht, Function.update_eq_self]
    rw [Program.advance, same]
    exact h
  | succ n ih =>
    cases p with
    | done a =>
      have same : Function.update threads t (some (.running (.done a))) = threads := by
        rw [← ht, Function.update_eq_self]
      rw [Program.advance, same]
      exact h
    | call o next =>
      have rest := ih (Function.update threads t (some (.running (next (answer o s).1))))
        (next (answer o s).1) (answer o s).2 (by simp)
        (h.step _ _ (.call threads s t o next _ _ ht (answers o s)))
      rwa [Function.update_idem] at rest

theorem Reachable.join {W : World τ O A σ} {Startable : Program O A Unit → Prop} {start : σ}
    {P : Pool τ O A σ} (t : τ) (answer : (o : O) → σ → A o × σ)
    (answers : ∀ o s, W.exec t o s (answer o s).1 (answer o s).2) (n : Nat)
    (p : Program O A Unit) (ht : P.threads t = none) (hp : Startable p)
    (h : W.Reachable Startable start P) :
    W.Reachable Startable start (P.join t answer n p) := by
  have born := h.step _ _ (.spawn P.threads P.shared t p ht hp)
  have went := born.advance t answer answers n _ p P.shared (by simp)
  rwa [Function.update_idem] at went

/-- A turn of a scheduler: a thread comes, goes on, or the system changes by itself. -/
inductive Turn (τ κ μ : Type) where
  | spawn (t : τ)
  | go (t : τ) (choice : κ)
  | outside (move : μ)

section
variable {κ μ : Type} (p : Program O A Unit) (answer : κ → τ → (o : O) → σ → Option (A o × σ))
  (change : μ → σ → Option σ)

def playTurn (P : Pool τ O A σ) : Turn τ κ μ → Option (Pool τ O A σ)
  | .spawn t =>
    match P.threads t with
    | none => some ⟨Function.update P.threads t (some (.running p)), P.shared⟩
    | some _ => none
  | .go t choice =>
    match P.threads t with
    | some (.running (.call o next)) => (answer choice t o P.shared).map fun (a, s) =>
      ⟨Function.update P.threads t (some (.running (next a))), s⟩
    | _ => none
  | .outside move => (change move P.shared).map fun s => ⟨P.threads, s⟩

def play (P : Pool τ O A σ) (turns : List (Turn τ κ μ)) : Option (Pool τ O A σ) :=
  turns.foldlM (playTurn p answer change) P

variable {p answer change} {W : World τ O A σ} {Startable : Program O A Unit → Prop}
  (startable : Startable p)
  (answers : ∀ choice t o s a s', answer choice t o s = some (a, s') → W.exec t o s a s')
  (changes : ∀ move s s', change move s = some s' → W.outside s s')
include startable answers changes

theorem step_of_playTurn {P Q : Pool τ O A σ} {turn : Turn τ κ μ}
    (h : playTurn p answer change P turn = some Q) : W.Step Startable P Q := by
  cases turn with
  | spawn t =>
    simp only [playTurn] at h
    split at h
    · cases h
      apply Step.spawn
      · assumption
      · exact startable
    · cases h
  | go t choice =>
    simp only [playTurn] at h
    split at h
    · obtain ⟨⟨a, s⟩, answered, rfl⟩ := Option.map_eq_some_iff.mp h
      apply Step.call
      · assumption
      · exact answers choice t _ _ a s answered
    · cases h
  | outside move =>
    obtain ⟨s, changed, rfl⟩ := Option.map_eq_some_iff.mp h
    apply Step.outside
    exact changes move _ s changed

theorem leads_play (turns : List (Turn τ κ μ)) (P Q : Pool τ O A σ)
    (played : World.play p answer change P turns = some Q) : W.Leads Startable P Q := by
  induction turns generalizing P with
  | nil =>
    cases played
    exact .refl
  | cons turn turns ih =>
    simp only [World.play, List.foldlM_cons, Option.bind_eq_bind, Option.bind_eq_some_iff] at played
    obtain ⟨R, turned, rest⟩ := played
    exact .head (step_of_playTurn startable answers changes turned) (ih R rest)

theorem Reachable.play {start : σ} (turns : List (Turn τ κ μ)) (P Q : Pool τ O A σ)
    (h : W.Reachable Startable start P) (played : World.play p answer change P turns = some Q) :
    W.Reachable Startable start Q :=
  h.leads (leads_play startable answers changes turns P Q played)

end

/-- What the world keeps of the shared state holds in every reachable pool. -/
theorem shared_invariant (I : σ → Prop) (start : σ) (first : I start)
    (exec : ∀ t o s a s', I s → W.exec t o s a s' → I s')
    (reap : ∀ t s s', I s → W.reap t s s' → I s') (outside : ∀ s s', I s → W.outside s s' → I s')
    (P : Pool τ O A σ) (h : W.Reachable Startable start P) : I P.shared := by
  induction h with
  | start => exact first
  | step P Q _ hs ih =>
    cases hs with
    | spawn threads s t p hn hp => exact ih
    | call threads s t o next a s' ht he => exact exec t o s a s' ih he
    | kill threads s t p ht => exact ih
    | reap threads s t s' ht hr => exact reap t s s' ih hr
    | outside threads s s' ho => exact outside s s' ih ho

/-- Each thread sees its own part of the system: its calls keep the contract, and nothing else
touches that part while it runs. -/
structure Isolates (C : Contract O A υ) (view : τ → σ → υ) : Prop where
  own : ∀ t o s a s', W.exec t o s a s' → C.ensures o (view t s) a (view t s')
  frame : ∀ t u o s a s', W.exec t o s a s' → u ≠ t → view u s' = view u s
  reap : ∀ t u s s', W.reap t s s' → u ≠ t → view u s' = view u s
  outside : ∀ u s s', W.outside s s' → view u s' = view u s

/-- In every interleaving each running thread is at a point of its program that meets the contract
from what it sees now; a thread not yet started sees what threads start with. -/
theorem Isolates.meets {W : World τ O A σ} {Startable : Program O A Unit → Prop}
    {C : Contract O A υ} {view : τ → σ → υ} (h : W.Isolates C view) {post : Unit → υ → Prop}
    {start : σ} {fresh : υ} (first : ∀ t, view t start = fresh)
    (good : ∀ p, Startable p → p.Meets C post fresh) (P : Pool τ O A σ)
    (reachable : W.Reachable Startable start P) (t : τ) :
    (P.threads t = none → view t P.shared = fresh) ∧
      ∀ p, P.threads t = some (.running p) → p.Meets C post (view t P.shared) := by
  induction reachable with
  | start => exact ⟨fun _ => first t, by simp⟩
  | step P Q _ hs ih =>
    obtain ⟨unborn, runs⟩ := ih
    cases hs with
    | spawn threads s u p hn hp =>
      by_cases htu : t = u
      · subst htu
        constructor
        · simp
        · intro q hq
          simp only [Function.update_self, Option.some.injEq, Thread.running.injEq] at hq
          rw [← hq, unborn hn]
          exact good p hp
      · exact ⟨by simpa [htu] using unborn, by simpa [htu] using runs⟩
    | call threads s u o next a s' ht he =>
      by_cases htu : t = u
      · subst htu
        constructor
        · simp
        · intro q hq
          simp only [Function.update_self, Option.some.injEq, Thread.running.injEq] at hq
          rw [← hq]
          exact (runs _ ht).2 a _ (h.own t o s a s' he)
      · have same := h.frame u t o s a s' he htu
        constructor
        · simpa [htu, same] using unborn
        · simpa [htu, same] using runs
    | kill threads s u p ht =>
      by_cases htu : t = u
      · subst htu
        exact ⟨by simp, by simp⟩
      · exact ⟨by simpa [htu] using unborn, by simpa [htu] using runs⟩
    | reap threads s u s' ht hr =>
      by_cases htu : t = u
      · subst htu
        exact ⟨by simp [ht], by simp [ht]⟩
      · have same := h.reap u t s s' hr htu
        exact ⟨by simpa [same] using unborn, by simpa [same] using runs⟩
    | outside threads s s' ho =>
      have same := h.outside t s s' ho
      exact ⟨by simpa [same] using unborn, by simpa [same] using runs⟩

/-- An invariant of the shared state may count on what each thread owes before its calls. -/
theorem Isolates.invariant {W : World τ O A σ} {Startable : Program O A Unit → Prop}
    {C : Contract O A υ} {view : τ → σ → υ} (h : W.Isolates C view) {post : Unit → υ → Prop}
    {start : σ} {fresh : υ} (first : ∀ t, view t start = fresh)
    (good : ∀ p, Startable p → p.Meets C post fresh) (I : σ → Prop) (starts : I start)
    (exec : ∀ t o s a s', I s → C.requires o (view t s) → W.exec t o s a s' → I s')
    (reap : ∀ t s s', I s → W.reap t s s' → I s') (outside : ∀ s s', I s → W.outside s s' → I s')
    (P : Pool τ O A σ) (reachable : W.Reachable Startable start P) : I P.shared := by
  induction reachable with
  | start => exact starts
  | step P Q before hs ih =>
    cases hs with
    | spawn threads s t p hn hp => exact ih
    | call threads s t o next a s' ht he =>
      have allowed := ((h.meets first good _ before t).2 _ ht).1
      exact exec t o s a s' ih allowed he
    | kill threads s t p ht => exact ih
    | reap threads s t s' ht hr => exact reap t s s' ih hr
    | outside threads s s' ho => exact outside s s' ih ho

/-- What a thread has asked so far and what it was answered. -/
abbrev History (O : Type) (A : O → Type) : Type := List ((o : O) × A o)

/-- The world with the histories of its threads written down; nobody reads them. -/
def recorded (W : World τ O A σ) : World τ O A (σ × (τ → History O A)) where
  exec t o s a s' := W.exec t o s.1 a s'.1 ∧ s'.2 = Function.update s.2 t (s.2 t ++ [⟨o, a⟩])
  reap t s s' := W.reap t s.1 s'.1 ∧ s'.2 = s.2
  outside s s' := W.outside s.1 s'.1 ∧ s'.2 = s.2

/-- A thread counts on nothing but that its own history grows, by answers that are possible. -/
def historyContract (requires : O → History O A → Prop) (possible : (o : O) → A o → Prop) :
    Contract O A (History O A) where
  requires
  ensures o v a v' := possible o a ∧ v' = v ++ [⟨o, a⟩]

/-- A history is never taken back. -/
theorem extends_history {α : Type} {requires : O → History O A → Prop}
    {possible : (o : O) → A o → Prop} {post : α → History O A → Prop} {p : Program O A α}
    {v : History O A} (h : p.Meets (historyContract requires possible) post v) :
    p.Meets (historyContract requires possible)
      (fun a v' => post a v' ∧ ∃ later, v' = v ++ later) v := by
  induction p generalizing v with
  | done a => exact ⟨h, [], by simp⟩
  | call o next ih =>
    refine ⟨h.1, ?_⟩
    intro a v' he
    apply (ih a (h.2 a v' he)).mono
    intro b v'' hb
    obtain ⟨ended, later, rfl⟩ := hb
    refine ⟨ended, ⟨o, a⟩ :: later, ?_⟩
    rw [he.2, List.append_assoc, List.singleton_append]

theorem recorded_isolates (W : World τ O A σ) (requires : O → History O A → Prop)
    (possible : (o : O) → A o → Prop) (answers : ∀ t o s a s', W.exec t o s a s' → possible o a) :
    W.recorded.Isolates (historyContract requires possible) fun t s => s.2 t where
  own := by
    intro t o s a s' h
    refine ⟨answers t o s.1 a s'.1 h.1, ?_⟩
    show s'.2 t = s.2 t ++ [⟨o, a⟩]
    rw [h.2, Function.update_self]
  frame := by
    intro t u o s a s' h hne
    show s'.2 u = s.2 u
    rw [h.2, Function.update_of_ne hne]
  reap := fun t u s s' h _ => congrFun h.2 u
  outside := fun u s s' h => congrFun h.2 u

/-- Every call of the history was one that its past allowed. -/
def Allowed (requires : O → History O A → Prop) (v : History O A) : Prop :=
  ∀ past o a later, v = past ++ ⟨o, a⟩ :: later → requires o past

theorem allowed_nil (requires : O → History O A → Prop) : Allowed requires [] := by
  intro past o a later h
  simp at h

theorem Allowed.concat {requires : O → History O A → Prop} {v : History O A} {o : O} {a : A o}
    (h : Allowed requires v) (next : requires o v) : Allowed requires (v ++ [⟨o, a⟩]) := by
  intro past o' a' later split
  rcases List.eq_nil_or_concat later with rfl | ⟨mid, last, rfl⟩
  · obtain ⟨rfl, same⟩ := List.append_inj' split rfl
    cases same
    exact next
  · rw [List.concat_eq_append, ← List.cons_append, ← List.append_assoc] at split
    obtain ⟨rfl, _⟩ := List.append_inj' split rfl
    exact h past o' a' mid rfl

end World
end HostMonitoring.Framework
