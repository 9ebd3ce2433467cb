import HostMonitoring.Server.Discipline
import HostMonitoring.Store.Presentable
import HostMonitoring.Telemetry.Moves

namespace HostMonitoring.Server

open HostMonitoring.Framework
open HostMonitoring.Framework.World (Allowed)
open HostMonitoring.Store
open HostMonitoring.Telemetry (TelemetryWriterConfig becomes_get becomes_origin)

/-- A server with what each of its connections has seen. -/
abbrev Recorded (D : Type) := State D × (Connection → Past)

/-- The store after some of the calls a server made, on what it started with. -/
def dbAfter (before : List Op) (past : List (Option Connection × Op)) : Db :=
  store.after (before ++ past.map Prod.snd)

theorem dbAfter_concat (before : List Op) (past : List (Option Connection × Op))
    (who : Option Connection) (op : Op) :
    dbAfter before (past ++ [(who, op)]) = (op.exec (dbAfter before past)).2 := by
  simp only [dbAfter, List.map_append, List.map_cons, List.map_nil, ← List.append_assoc,
    Machine.after_concat]
  rfl

/-- An entry of two lists in a row is in the first or in the second. -/
theorem split_append {α : Type} {xs ys past later : List α} {x : α}
    (h : xs ++ ys = past ++ x :: later) :
    (∃ rest, xs = past ++ x :: rest) ∨ ∃ mid, past = xs ++ mid ∧ ys = mid ++ x :: later := by
  rcases List.append_eq_append_iff.mp h with ⟨mid, hp, hy⟩ | ⟨mid, hx, hl⟩
  · exact Or.inr ⟨mid, hp, hy⟩
  · cases mid with
    | nil => exact Or.inr ⟨[], by simp [hx], by simpa using hl.symm⟩
    | cons y mid =>
      obtain ⟨rfl, _⟩ := List.cons.inj hl
      exact Or.inl ⟨mid, hx⟩

def isMutation : Call → Bool
  | .mutate _ => true
  | _ => false

def mutations (h : Past) : Nat := h.countP fun e => isMutation e.1

def isSubmission : Call → Bool
  | .submit _ => true
  | _ => false

/-- How often the connection has queued a report. -/
def submissions (h : Past) : Nat := h.countP fun e => isSubmission e.1

theorem submissions_concat (h : Past) (o : Call) (a : Answer o) :
    submissions (h ++ [⟨o, a⟩]) = submissions h + if isSubmission o then 1 else 0 := by
  simp [submissions, List.countP_append, List.countP_singleton]

theorem mutations_concat (h : Past) (o : Call) (a : Answer o) :
    mutations (h ++ [⟨o, a⟩]) = mutations h + if isMutation o then 1 else 0 := by
  simp [mutations, List.countP_append, List.countP_singleton]

theorem mutations_update {hist : Connection → Past} {c u : Connection} {o : Call} {a : Answer o} :
    mutations (Function.update hist c (hist c ++ [⟨o, a⟩]) u) =
      mutations (hist u) + if u = c ∧ isMutation o then 1 else 0 := by
  by_cases huc : u = c
  · subst huc
    simp [mutations_concat]
  · simp [huc]

theorem got_update {hist : Connection → Past} {c u : Connection} {o o' : Call} {a : Answer o}
    {a' : Answer o'} :
    Past.Got (Function.update hist c (hist c ++ [⟨o, a⟩]) u) o' a' ↔
      (hist u).Got o' a' ∨ u = c ∧ (⟨o', a'⟩ : (o : Call) × Answer o) = ⟨o, a⟩ := by
  by_cases huc : u = c
  · subst huc
    simp [Past.Got]
  · simp [Past.Got, huc]

section
variable {D : Type} (tokenHash : String → String) (config : TelemetryWriterConfig)
  (before : List Op)

def State.writes (s : State D) (c : Connection) : Nat := s.ops.countP fun e => decide (e.1 = some c)

/-- The calls of the store are those the connections made and those of the background, and each
answer a connection has is that of its call at its place. -/
structure Journal (s : Recorded D) : Prop where
  db : s.1.db = dbAfter before s.1.ops
  made : ∀ past c op later, s.1.ops = past ++ (some c, op) :: later → ∃ m luck,
    op = m.op tokenHash luck ∧
    (s.2 c).Got (.mutate m) (m.perform tokenHash luck (dbAfter before past)).1
  mutated : ∀ c m a, (s.2 c).Got (.mutate m) a → ∃ luck past later,
    s.1.ops = past ++ (some c, m.op tokenHash luck) :: later ∧
    a = (m.perform tokenHash luck (dbAfter before past)).1
  read : ∀ c q r, (s.2 c).Got (.query q) (.ok r) → ∃ past later now,
    s.1.ops = past ++ later ∧ q.Reads now (dbAfter before past) r
  count : ∀ c, s.1.writes c = mutations (s.2 c)

/-- What a batch stores was queued by a connection. -/
def Background (s : Recorded D) (op : Op) : Prop :=
  isRetention op = true ∨ ∃ boundary items, op = .storeReportBatch boundary items ∧
    ∀ item ∈ items, ∃ c call, (s.2 c).Got (.submit item.write) call

/-- Each call of the telemetry writer belongs to the connection that made it, which returns from it
with the answer it was given. -/
structure Reports (s : Recorded D) : Prop where
  writer : Telemetry.Inv config s.1.telemetry
  callers : s.1.callers.length = s.1.telemetry.calls.length
  submitted : ∀ c write i, (s.2 c).Got (.submit write) i ↔ s.1.callers[i]? = some c ∧
    ∃ call, s.1.telemetry.calls[i]? = some call ∧ call.write = write
  answered : ∀ c i a, (s.2 c).Got (.submitted i) a →
    ∃ call, s.1.telemetry.calls[i]? = some call ∧ call.phase = .returned a
  returned : ∀ (i : Nat) (call : Telemetry.Call) (e : StoreError),
    s.1.telemetry.calls[i]? = some call → call.phase = .returned (.error (.store e)) →
      (i, .error e) ∈ s.1.telemetry.answers
  outcomes : ∀ o ∈ s.1.telemetry.outcomes, ∃ past later,
    s.1.ops = past ++ (none, .storeReportBatch o.boundary o.items) :: later ∧
    o.before = dbAfter before past
  background : ∀ op, (none, op) ∈ s.1.ops → Background s op

structure Sound (s : Recorded D) : Prop where
  allowed : ∀ c, Allowed (Owes tokenHash) (s.2 c)
  journal : Journal tokenHash before s
  reports : Reports config before s

end

section
variable {D : Type} {tokenHash : String → String} {config : TelemetryWriterConfig}
  {before : List Op} {s s' : Recorded D}

/-- The store moves on by some calls, and the connections see more. -/
theorem Journal.step (j : Journal tokenHash before s) (more : List (Option Connection × Op))
    (ops : s'.1.ops = s.1.ops ++ more) (db : s'.1.db = dbAfter before s'.1.ops)
    (keeps : ∀ c o a, (s.2 c).Got o a → (s'.2 c).Got o a)
    (made : ∀ c op, (some c, op) ∈ more → more = [(some c, op)] ∧ ∃ m luck,
      op = m.op tokenHash luck ∧ (s'.2 c).Got (.mutate m) (m.perform tokenHash luck s.1.db).1)
    (mutated : ∀ c m a, (s'.2 c).Got (.mutate m) a → (s.2 c).Got (.mutate m) a ∨ ∃ luck,
      more = [(some c, m.op tokenHash luck)] ∧ a = (m.perform tokenHash luck s.1.db).1)
    (read : ∀ c q r, (s'.2 c).Got (.query q) (.ok r) → (s.2 c).Got (.query q) (.ok r) ∨
      ∃ now, q.Reads now s.1.db r)
    (count : ∀ c, mutations (s'.2 c) = mutations (s.2 c) +
      more.countP fun e => decide (e.1 = some c)) : Journal tokenHash before s' where
  db := db
  made past c op later split := by
    rw [ops] at split
    rcases split_append split with ⟨rest, hs⟩ | ⟨mid, rfl, hm⟩
    · obtain ⟨m, luck, hop, got⟩ := j.made past c op rest hs
      exact ⟨m, luck, hop, keeps _ _ _ got⟩
    · obtain ⟨alone, m, luck, hop, got⟩ := made c op (by simp [hm])
      rw [alone] at hm
      have empty : mid = [] := by
        cases mid with
        | nil => rfl
        | cons e mid => simp at hm
      subst empty
      rw [List.append_nil, ← j.db]
      exact ⟨m, luck, hop, got⟩
  mutated c m a got := by
    rcases mutated c m a got with got | ⟨luck, alone, ha⟩
    · obtain ⟨luck, past, later, hs, ha⟩ := j.mutated c m a got
      exact ⟨luck, past, later ++ more, by rw [ops, hs]; simp, ha⟩
    · refine ⟨luck, s.1.ops, [], ?_, ?_⟩
      · rw [ops, alone]
      · rw [← j.db, ha]
  read c q r got := by
    rcases read c q r got with got | ⟨now, reads⟩
    · obtain ⟨past, later, now, hs, reads⟩ := j.read c q r got
      exact ⟨past, later ++ more, now, by rw [ops, hs]; simp, reads⟩
    · refine ⟨s.1.ops, more, now, ops, ?_⟩
      rw [← j.db]
      exact reads
  count c := by rw [State.writes, ops, List.countP_append, count, ← j.count, State.writes]

theorem Background.mono {op : Op} (h : Background s op)
    (keeps : ∀ c o a, (s.2 c).Got o a → (s'.2 c).Got o a) : Background s' op := by
  rcases h with retention | ⟨boundary, items, hop, queued⟩
  · exact Or.inl retention
  · refine Or.inr ⟨boundary, items, hop, fun item hi => ?_⟩
    obtain ⟨c, call, got⟩ := queued item hi
    exact ⟨c, call, keeps _ _ _ got⟩

/-- The telemetry writer moves on with the calls it has. -/
theorem Reports.step (r : Reports config before s) (more : List (Option Connection × Op))
    (ops : s'.1.ops = s.1.ops ++ more) (journal : s.1.db = dbAfter before s.1.ops)
    (writer : Telemetry.Inv config s'.1.telemetry) (callers : s'.1.callers = s.1.callers)
    (calls : List.Forall₂ Telemetry.Call.Becomes s.1.telemetry.calls s'.1.telemetry.calls)
    (answers : s.1.telemetry.answers <+: s'.1.telemetry.answers)
    (outcomes : ∀ o ∈ s'.1.telemetry.outcomes, o ∈ s.1.telemetry.outcomes ∨
      more = [(none, .storeReportBatch o.boundary o.items)] ∧ o.before = s.1.db)
    (background : ∀ op, (none, op) ∈ more → Background s' op)
    (keeps : ∀ c o a, (s.2 c).Got o a → (s'.2 c).Got o a)
    (submitted : ∀ c write i, (s'.2 c).Got (.submit write) i → (s.2 c).Got (.submit write) i)
    (answered : ∀ c i a, (s'.2 c).Got (.submitted i) a → (s.2 c).Got (.submitted i) a ∨
      ∃ call, s.1.telemetry.calls[i]? = some call ∧ call.phase = .returned a) :
    Reports config before s' where
  writer := writer
  callers := by rw [callers, r.callers, calls.length_eq]
  submitted c write i := by
    constructor
    · intro got
      obtain ⟨mine, call, hc, hw⟩ := (r.submitted c write i).mp (submitted c write i got)
      obtain ⟨call', hc', becomes⟩ := becomes_get calls hc
      exact ⟨by rw [callers, mine], call', hc', becomes.write.trans hw⟩
    · intro held
      obtain ⟨mine, call', hc', hw⟩ := held
      obtain ⟨call, hc, becomes⟩ := becomes_origin calls hc'
      rw [callers] at mine
      exact keeps _ _ _ ((r.submitted c write i).mpr ⟨mine, call, hc, becomes.write ▸ hw⟩)
  answered c i a got := by
    have known : ∃ call, s.1.telemetry.calls[i]? = some call ∧ call.phase = .returned a := by
      rcases answered c i a got with got | held
      · exact r.answered c i a got
      · exact held
    obtain ⟨call, hc, hp⟩ := known
    obtain ⟨call', hc', becomes⟩ := becomes_get calls hc
    exact ⟨call', hc', becomes.returned a hp⟩
  returned i call' e hc' hp := by
    obtain ⟨call, hc, becomes⟩ := becomes_origin calls hc'
    apply answers.subset
    rcases becomes.phase with same | ⟨_, own⟩
    · exact r.returned i call e hc (same ▸ hp)
    · exact (r.writer.calls.each i call hc).filled _ (own e hp)
  outcomes o ho := by
    rcases outcomes o ho with ho | ⟨alone, started⟩
    · obtain ⟨past, later, hs, started⟩ := r.outcomes o ho
      exact ⟨past, later ++ more, by rw [ops, hs]; simp, started⟩
    · exact ⟨s.1.ops, [], by rw [ops, alone], started.trans journal⟩
  background op hop := by
    rw [ops] at hop
    rcases List.mem_append.mp hop with hop | hop
    · exact (r.background op hop).mono keeps
    · exact background op hop

/-- A connection sees one more answer and the store stays as it is. -/
theorem Sound.idle (h : Sound tokenHash config before s) {c : Connection} {o : Call} {a : Answer o}
    (owes : Owes tokenHash o (s.2 c)) (hist : s'.2 = Function.update s.2 c (s.2 c ++ [⟨o, a⟩]))
    (telemetry : s'.1.telemetry = s.1.telemetry) (callers : s'.1.callers = s.1.callers)
    (ops : s'.1.ops = s.1.ops) (mutates : ∀ m, o ≠ .mutate m) (submits : ∀ write, o ≠ .submit write)
    (read : ∀ q r, (⟨.query q, .ok r⟩ : (o : Call) × Answer o) = ⟨o, a⟩ →
      ∃ now, q.Reads now s.1.db r)
    (answered : ∀ i b, (⟨.submitted i, b⟩ : (o : Call) × Answer o) = ⟨o, a⟩ →
      ∃ call, s.1.telemetry.calls[i]? = some call ∧ call.phase = .returned b) :
    Sound tokenHash config before s' := by
  have db : s'.1.db = s.1.db := congrArg Telemetry.State.db telemetry
  have keeps : ∀ u o a, (s.2 u).Got o a → (s'.2 u).Got o a := by
    intro u o' a' got
    rw [hist]
    exact got_update.mpr (Or.inl got)
  refine ⟨?_, h.journal.step [] ?_ ?_ keeps ?_ ?_ ?_ ?_, h.reports.step [] ?_ h.journal.db ?_ callers
    ?_ ?_ ?_ ?_ keeps ?_ ?_⟩
  · intro u
    rw [hist]
    by_cases huc : u = c
    · subst huc
      rw [Function.update_self]
      exact (h.allowed u).concat owes
    · rw [Function.update_of_ne huc]
      exact h.allowed u
  · simp [ops]
  · rw [db, ops]
    exact h.journal.db
  · simp
  · intro u m b got
    rw [hist] at got
    rcases got_update.mp got with got | ⟨_, same⟩
    · exact Or.inl got
    · exact absurd (congrArg Sigma.fst same).symm (mutates m)
  · intro u q r got
    rw [hist] at got
    rcases got_update.mp got with got | ⟨_, same⟩
    · exact Or.inl got
    · exact Or.inr (read q r same)
  · intro u
    rw [hist, mutations_update]
    cases o with
    | mutate m => exact absurd rfl (mutates m)
    | _ => simp [isMutation]
  · simp [ops]
  · rw [telemetry]
    exact h.reports.writer
  · rw [telemetry]
    exact List.forall₂_same.mpr fun call _ => call.becomes_refl
  · rw [telemetry]
  · intro o ho
    rw [telemetry] at ho
    exact Or.inl ho
  · simp
  · intro u write i got
    rw [hist] at got
    rcases got_update.mp got with got | ⟨_, same⟩
    · exact got
    · exact absurd (congrArg Sigma.fst same).symm (submits write)
  · intro u i b got
    rw [hist] at got
    rcases got_update.mp got with got | ⟨_, same⟩
    · exact Or.inl got
    · exact Or.inr (answered i b same)

/-- A connection has a call of the store. -/
theorem Sound.mutate (h : Sound tokenHash config before s) {c : Connection} {m : Mutation}
    {luck : Luck} (owes : Owes tokenHash (.mutate m) (s.2 c))
    (hist : s'.2 = Function.update s.2 c
      (s.2 c ++ [⟨.mutate m, (m.perform tokenHash luck s.1.db).1⟩]))
    (performed : s'.1 = s.1.performed (some c) (m.op tokenHash luck)) :
    Sound tokenHash config before s' := by
  have keeps : ∀ u o a, (s.2 u).Got o a → (s'.2 u).Got o a := by
    intro u o' a' got
    rw [hist]
    exact got_update.mpr (Or.inl got)
  refine ⟨?_, h.journal.step [(some c, m.op tokenHash luck)] ?_ ?_ keeps ?_ ?_ ?_ ?_,
    h.reports.step [(some c, m.op tokenHash luck)] ?_ h.journal.db ?_ ?_ ?_ ?_ ?_ ?_ keeps ?_ ?_⟩
  · intro u
    rw [hist]
    by_cases huc : u = c
    · subst huc
      rw [Function.update_self]
      exact (h.allowed u).concat owes
    · rw [Function.update_of_ne huc]
      exact h.allowed u
  · rw [performed]
    rfl
  · rw [performed]
    show ((m.op tokenHash luck).exec s.1.db).2 = dbAfter before (s.1.ops ++ [_])
    rw [dbAfter_concat, h.journal.db]
  · intro u op hop
    cases List.mem_singleton.mp hop
    refine ⟨rfl, m, luck, rfl, ?_⟩
    rw [hist]
    exact got_update.mpr (Or.inr ⟨rfl, rfl⟩)
  · intro u m' b got
    rw [hist] at got
    rcases got_update.mp got with got | ⟨rfl, same⟩
    · exact Or.inl got
    · cases same
      exact Or.inr ⟨luck, rfl, rfl⟩
  · intro u q r got
    rw [hist] at got
    rcases got_update.mp got with got | ⟨_, same⟩
    · exact Or.inl got
    · cases congrArg Sigma.fst same
  · intro u
    rw [hist, mutations_update]
    simp [isMutation, List.countP_singleton, eq_comm]
  · rw [performed]
    rfl
  · rw [performed]
    exact h.reports.writer.step (.elsewhere (m.op tokenHash luck)) _ rfl
  · rw [performed]
    rfl
  · rw [performed]
    exact List.forall₂_same.mpr fun call _ => call.becomes_refl
  · rw [performed]
    exact List.prefix_refl _
  · intro o ho
    rw [performed] at ho
    exact Or.inl ho
  · simp
  · intro u write i got
    rw [hist] at got
    rcases got_update.mp got with got | ⟨_, same⟩
    · exact got
    · cases congrArg Sigma.fst same
  · intro u i b got
    rw [hist] at got
    rcases got_update.mp got with got | ⟨_, same⟩
    · exact Or.inl got
    · cases congrArg Sigma.fst same

theorem getElem?_concat {α : Type} (xs : List α) (x y : α) (i : Nat) :
    (xs ++ [x])[i]? = some y ↔ xs[i]? = some y ∨ i = xs.length ∧ y = x := by
  rcases lt_trichotomy i xs.length with hi | hi | hi
  · simp [List.getElem?_append_left hi, hi.ne]
  · subst hi
    simp [eq_comm]
  · have past : xs[i]? = none := List.getElem?_eq_none hi.le
    have beyond : (xs ++ [x])[i]? = none := List.getElem?_eq_none (by simp; omega)
    simp [past, beyond, hi.ne']

/-- A connection starts a call of the telemetry writer. -/
theorem Sound.submit (h : Sound tokenHash config before s) {c : Connection} {write : ReportWrite}
    {telemetry : Telemetry.State} (owes : Owes tokenHash (.submit write) (s.2 c))
    (step : Telemetry.step config s.1.telemetry (.submit write) = some telemetry)
    (hist : s'.2 = Function.update s.2 c
      (s.2 c ++ [⟨.submit write, s.1.telemetry.calls.length⟩]))
    (called : s'.1 = { s.1 with telemetry, callers := s.1.callers ++ [c] }) :
    Sound tokenHash config before s' := by
  have writer := h.reports.writer.step _ _ step
  have keeps : ∀ u o a, (s.2 u).Got o a → (s'.2 u).Got o a := by
    intro u o' a' got
    rw [hist]
    exact got_update.mpr (Or.inl got)
  simp only [Telemetry.step] at step
  split_ifs at step
  cases step
  have calls : s'.1.telemetry.calls = s.1.telemetry.calls ++ [{ write := write }] := by rw [called]
  have callers : s'.1.callers = s.1.callers ++ [c] := by rw [called]
  have ops : s'.1.ops = s.1.ops := by rw [called]
  refine ⟨?_, h.journal.step [] ?_ ?_ keeps ?_ ?_ ?_ ?_, ?_⟩
  · intro u
    rw [hist]
    by_cases huc : u = c
    · subst huc
      rw [Function.update_self]
      exact (h.allowed u).concat owes
    · rw [Function.update_of_ne huc]
      exact h.allowed u
  · simp [ops]
  · rw [ops, called]
    exact h.journal.db
  · simp
  · intro u m b got
    rw [hist] at got
    rcases got_update.mp got with got | ⟨_, same⟩
    · exact Or.inl got
    · cases congrArg Sigma.fst same
  · intro u q r got
    rw [hist] at got
    rcases got_update.mp got with got | ⟨_, same⟩
    · exact Or.inl got
    · cases congrArg Sigma.fst same
  · intro u
    rw [hist, mutations_update]
    simp [isMutation]
  · have length := h.reports.callers
    refine ⟨by rw [called]; exact writer, by simp [calls, callers, length], ?_, ?_, ?_, ?_, ?_⟩
    · intro u write' i
      rw [hist, got_update, h.reports.submitted, calls, callers, getElem?_concat]
      simp only [getElem?_concat, length]
      constructor
      · intro got
        rcases got with ⟨mine, call, hc, hw⟩ | ⟨rfl, same⟩
        · exact ⟨Or.inl mine, call, Or.inl hc, hw⟩
        · cases same
          exact ⟨Or.inr ⟨rfl, rfl⟩, _, Or.inr ⟨rfl, rfl⟩, rfl⟩
      · intro held
        obtain ⟨mine, call, hc, hw⟩ := held
        rcases hc with hc | ⟨hi, rfl⟩
        · have known := (List.getElem?_eq_some_iff.mp hc).1
          rcases mine with mine | ⟨hi, _⟩
          · exact Or.inl ⟨mine, call, hc, hw⟩
          · omega
        · rcases mine with mine | ⟨_, rfl⟩
          · have known := (List.getElem?_eq_some_iff.mp mine).1
            omega
          · subst hi hw
            exact Or.inr ⟨rfl, rfl⟩
    · intro u i b got
      rw [hist] at got
      rcases got_update.mp got with got | ⟨_, same⟩
      · obtain ⟨call, hc, hp⟩ := h.reports.answered u i b got
        exact ⟨call, by rw [calls, getElem?_concat]; exact Or.inl hc, hp⟩
      · cases congrArg Sigma.fst same
    · intro i call e hc hp
      rw [calls, getElem?_concat] at hc
      rw [called]
      rcases hc with hc | ⟨_, rfl⟩
      · exact h.reports.returned i call e hc hp
      · cases hp
    · intro o ho
      rw [called] at ho
      rw [ops]
      exact h.reports.outcomes o ho
    · intro op hop
      rw [ops] at hop
      exact (h.reports.background op hop).mono keeps

/-- Everybody else moves on: the writer, its callers, its shutdown. -/
theorem Sound.telemetry (h : Sound tokenHash config before s) {move : Telemetry.Move}
    {telemetry : Telemetry.State} (own : ∀ write, move ≠ .submit write)
    (other : ∀ op, move ≠ .elsewhere op)
    (step : Telemetry.step config s.1.telemetry move = some telemetry) (hist : s'.2 = s.2)
    (moved : s'.1 = { s.1 with
      telemetry
      ops := s.1.ops ++ byNobody (transacted s.1.telemetry move) }) :
    Sound tokenHash config before s' := by
  have writer := h.reports.writer.step _ _ step
  have keeps : ∀ c o a, (s.2 c).Got o a → (s'.2 c).Got o a := by
    rw [hist]
    exact fun _ _ _ got => got
  have callers : s'.1.callers = s.1.callers := by rw [moved]
  have tel : s'.1.telemetry = telemetry := by rw [moved]
  have ops : s'.1.ops = s.1.ops ++ byNobody (transacted s.1.telemetry move) := by rw [moved]
  have store : s'.1.db = telemetry.db := congrArg Telemetry.State.db tel
  have queued : ∀ q ∈ s.1.telemetry.writer.current.flatten, ∃ c, (s'.2 c).Got (.submit q.write)
      q.call := by
    intro q hq
    have sent : q ∈ s.1.telemetry.sent := by
      rw [h.reports.writer.flow.order, h.reports.writer.ledger.ended]
      simp [hq]
    obtain ⟨call, hc, hw⟩ := h.reports.writer.calls.known q sent
    have known := (List.getElem?_eq_some_iff.mp hc).1
    rw [← h.reports.callers] at known
    refine ⟨s.1.callers[q.call], keeps _ _ _ ((h.reports.submitted _ _ _).mpr ?_)⟩
    exact ⟨List.getElem?_eq_getElem known, call, hc, hw⟩
  rcases Telemetry.step_cases own other step with ⟨noTransact, advances⟩ |
    ⟨boundary, receivedAt, faults, batch, rfl, hw, rfl⟩
  · have nothing : byNobody (transacted s.1.telemetry move) = [] := by
      unfold transacted
      split
      · exact absurd rfl (noTransact _ _ _)
      · rfl
    rw [nothing] at ops
    refine ⟨?_, h.journal.step [] ops ?_ keeps (by simp) ?_ ?_ (by simp [hist]),
      h.reports.step [] ops h.journal.db ?_ callers ?_ ?_ ?_ (by simp) keeps ?_ ?_⟩
    · rw [hist]
      exact h.allowed
    · rw [store, ops, List.append_nil, advances.db]
      exact h.journal.db
    · rw [hist]
      exact fun _ _ _ got => Or.inl got
    · rw [hist]
      exact fun _ _ _ got => Or.inl got
    · rw [tel]
      exact writer
    · rw [tel]
      exact advances.calls
    · rw [tel]
      exact advances.answers
    · rw [tel, advances.outcomes]
      exact fun o ho => Or.inl ho
    · rw [hist]
      exact fun _ _ _ got => got
    · rw [hist]
      exact fun _ _ _ got => Or.inl got
  · obtain ⟨calls, answers, db, outcomes⟩ := Telemetry.transacted_store s.1.telemetry
      ⟨batch, boundary, receivedAt, faults, s.1.telemetry.db⟩
    have more : byNobody (transacted s.1.telemetry
        (.writer (.transact boundary receivedAt faults))) = [(none, .storeReportBatch boundary
          (batch.map fun q => ⟨q.write, receivedAt q, faults q⟩))] := by
      simp [transacted, byNobody, hw]
    rw [more] at ops
    refine ⟨?_, h.journal.step _ ops ?_ keeps (by simp) ?_ ?_ (by simp [hist]),
      h.reports.step _ ops h.journal.db ?_ callers ?_ ?_ ?_ ?_ keeps ?_ ?_⟩
    · rw [hist]
      exact h.allowed
    · rw [store, ops, dbAfter_concat, db, ← h.journal.db]
      rfl
    · rw [hist]
      exact fun _ _ _ got => Or.inl got
    · rw [hist]
      exact fun _ _ _ got => Or.inl got
    · rw [tel]
      exact writer
    · rw [tel]
      exact calls
    · rw [tel, answers]
    · rw [tel, outcomes]
      intro o ho
      rcases List.mem_append.mp ho with ho | ho
      · exact Or.inl ho
      · cases List.mem_singleton.mp ho
        exact Or.inr ⟨rfl, rfl⟩
    · intro op hop
      cases List.mem_singleton.mp hop
      refine Or.inr ⟨boundary, _, rfl, ?_⟩
      intro item hi
      obtain ⟨q, hq, rfl⟩ := List.mem_map.mp hi
      obtain ⟨c, got⟩ := queued q (by simp [Telemetry.Writer.current, hw, hq])
      exact ⟨c, q.call, got⟩
    · rw [hist]
      exact fun _ _ _ got => got
    · rw [hist]
      exact fun _ _ _ got => Or.inl got

/-- The retention service has a call of the store. -/
theorem Sound.retention (h : Sound tokenHash config before s) {op : Op}
    (isRetention : isRetention op = true) (hist : s'.2 = s.2)
    (performed : s'.1 = s.1.performed none op) : Sound tokenHash config before s' := by
  have keeps : ∀ c o a, (s.2 c).Got o a → (s'.2 c).Got o a := by
    rw [hist]
    exact fun _ _ _ got => got
  refine ⟨?_, h.journal.step [(none, op)] ?_ ?_ keeps (by simp) ?_ ?_ (by simp [hist]),
    h.reports.step [(none, op)] ?_ h.journal.db ?_ ?_ ?_ ?_ ?_ ?_ keeps ?_ ?_⟩
  · rw [hist]
    exact h.allowed
  · rw [performed]
    rfl
  · rw [performed]
    show (op.exec s.1.db).2 = dbAfter before (s.1.ops ++ [_])
    rw [dbAfter_concat, h.journal.db]
  · rw [hist]
    exact fun _ _ _ got => Or.inl got
  · rw [hist]
    exact fun _ _ _ got => Or.inl got
  · rw [performed]
    rfl
  · rw [performed]
    exact h.reports.writer.step (.elsewhere op) _ rfl
  · rw [performed]
    rfl
  · rw [performed]
    exact List.forall₂_same.mpr fun call _ => call.becomes_refl
  · rw [performed]
    exact List.prefix_refl _
  · intro o ho
    rw [performed] at ho
    exact Or.inl ho
  · intro op' hop
    cases List.mem_singleton.mp hop
    exact Or.inl isRetention
  · rw [hist]
    exact fun _ _ _ got => got
  · rw [hist]
    exact fun _ _ _ got => Or.inl got

end
end HostMonitoring.Server
