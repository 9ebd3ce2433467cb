import HostMonitoring.Store.System

namespace HostMonitoring.Store

open HostMonitoring.Framework
open HostMonitoring.Framework.Tx
open HostMonitoring.Protocol

/-- A batch whose body went through is committed unless its boundary fails. -/
theorem storeReportBatch_commit (boundary : Boundary StoreError) (reports : List BatchItem)
    (db db' : Db) (results : List (Except StoreError (Bool × DateTime)))
    (hb : boundary.begins = none) (hc : boundary.commits = none)
    (h : (reports.mapM fun item => savepoint item.faults.boundary
      (storeReportInTransaction item.faults.statement item.write item.receivedAt)).run db =
        (.ok results, db')) :
    storeReportBatch boundary reports db = (.ok results, db') := by
  have body : (do
      let results ← reports.mapM fun item => savepoint item.faults.boundary
        (storeReportInTransaction item.faults.statement item.write item.receivedAt)
      return .commit results : Tx Db StoreError (Ending StoreError _)).run db =
      (.ok (.commit results), db') := by
    rw [bind_ok]
    exact ⟨results, db', h, rfl⟩
  unfold storeReportBatch transact
  simp only [hb, body, hc]

theorem boundary_of_ok {α : Type} (boundary : Boundary StoreError)
    (body : Tx Db StoreError (Ending StoreError α)) (s s' : Db) (a a' : α)
    (hb : body.run s = (.ok (.commit a'), s'))
    (h : transact boundary body s = (.ok a, s')) :
    boundary.begins = none ∧ boundary.commits = none := by
  unfold transact at h
  cases hbeg : boundary.begins with
  | some e => simp [hbeg] at h
  | none =>
    cases hcom : boundary.commits with
    | some e => simp [hbeg, hb, hcom] at h
    | none => exact ⟨rfl, rfl⟩

/-- A committed batch gives the results and the state of its reports stored one
after another, a rejected one as if it had never been in it; a failed batch
changes nothing. -/
theorem storeReportBatch_transparent (boundary : Boundary StoreError) (reports : List BatchItem)
    (db db' : Db) :
    (∀ results, storeReportBatch boundary reports db = (.ok results, db') →
      oneByOne storeSeparately reports db = (results, db') ∧
      ∀ front item back frontResults e backResults, reports = front ++ item :: back →
        results = frontResults ++ .error e :: backResults → front.length = frontResults.length →
        storeReportBatch boundary (front ++ back) db = (.ok (frontResults ++ backResults), db')) ∧
    (∀ e, storeReportBatch boundary reports db = (.error e, db') → db' = db) := by
  constructor
  · intro results h
    obtain ⟨⟨e, he⟩, _⟩ | ⟨results', hr, body, separate⟩ := storeReportBatch_cases _ _ _ _ _ h
    · cases he
    cases hr
    refine ⟨separate, ?_⟩
    rintro front item back frontResults e backResults rfl rfl length
    obtain ⟨hb, hc⟩ := boundary_of_ok boundary _ db db' _ _
      ((bind_ok _ _ _ _ _).mpr ⟨_, db', body, rfl⟩) h
    refine storeReportBatch_commit boundary _ db db' _ hb hc ?_
    exact mapM_skip _ front back item _ frontResults backResults db db'
      (fun s₁ s₂ hs => savepoint_error _ _ e s₁ s₂ hs) length body
  · intro e h
    exact transact_error _ _ _ _ _ h

/-- A report of the active laptop, an older one, one of a host unknown to the server, and the first
again. -/
def mixedBatch : List BatchItem :=
  let newer := laptopReport "00000000-0000-0000-0000-000000000006" (noon.plusSeconds 10)
  [⟨newer, noon.plusSeconds 20, .none⟩,
    ⟨laptopReport "00000000-0000-0000-0000-000000000005" noon, noon.plusSeconds 21, .none⟩,
    ⟨cpuReport "00000000-0000-0000-0000-000000000007" "00000000-0000-0000-0000-000000000008" noon 50,
      noon.plusSeconds 22, .none⟩,
    ⟨newer, noon.plusSeconds 23, .none⟩]

theorem storeReportBatch_transparent_stranger :
    let stored := (storeReportBatch (.quiet _) mixedBatch (store.after laptopActive)).2
    oneByOne storeSeparately mixedBatch (store.after laptopActive) =
      ([.ok (true, noon.plusSeconds 20), .ok (true, noon.plusSeconds 21),
        .error (.report .unauthorized), .ok (false, noon.plusSeconds 20)], stored) ∧
    storeReportBatch (.quiet _) (mixedBatch.eraseIdx 2) (store.after laptopActive) =
      (.ok [.ok (true, noon.plusSeconds 20), .ok (true, noon.plusSeconds 21),
        .ok (false, noon.plusSeconds 20)], stored) := by
  have batch : (storeReportBatch (.quiet _) mixedBatch (store.after laptopActive)).1 =
      .ok [.ok (true, noon.plusSeconds 20), .ok (true, noon.plusSeconds 21),
        .error (.report .unauthorized), .ok (false, noon.plusSeconds 20)] := by
    decide +kernel
  obtain ⟨separate, skips⟩ := (storeReportBatch_transparent (.quiet _) mixedBatch
    (store.after laptopActive) _).1 _ (Prod.ext batch rfl)
  exact ⟨separate, skips (mixedBatch.take 2) _ (mixedBatch.drop 3) [_, _] _ [_] rfl rfl rfl⟩

end HostMonitoring.Store
