import HostMonitoring.Store.System

namespace HostMonitoring.Store

open HostMonitoring.Framework
open HostMonitoring.Framework.Tx
open HostMonitoring.Protocol

/-- The report when the store answered that it accepted it. -/
def acceptedReport (write : ReportWrite) (r : Except StoreError (Bool × DateTime)) :
    List ReportWrite :=
  match r with
  | .ok (true, _) => [write]
  | _ => []

def acceptedReports (reports : List BatchItem)
    (results : List (Except StoreError (Bool × DateTime))) : List ReportWrite :=
  (List.zipWith (fun item r => acceptedReport item.write r) reports results).flatten

/-- The reports a call answers `accepted=true` for. -/
def Op.accepts (op : Op) (db : Db) : List ReportWrite :=
  match op with
  | .storeReport f write receivedAt =>
    acceptedReport write (Store.storeReport f write receivedAt db).1
  | .storeReportBatch boundary reports =>
    match (Store.storeReportBatch boundary reports db).1 with
    | .ok results => acceptedReports reports results
    | .error _ => []
  | _ => []

/-- All reports ever accepted, in order. -/
def accepted (ops : List Op) : List ReportWrite := store.observed Op.accepts ops

def Op.Stores : Op → Prop
  | .storeReport _ _ _ => True
  | .storeReportBatch _ _ => True
  | _ => False

theorem accepts_nil (op : Op) (db : Db) (h : ¬op.Stores) : op.accepts db = [] := by
  cases op <;> first | rfl | exact absurd trivial h

/-- The reports a call brings. -/
def Op.writes : Op → List ReportWrite
  | .storeReport _ write _ => [write]
  | .storeReportBatch _ reports => reports.map BatchItem.write
  | _ => []

section
variable (W : List ReportWrite) (P : List ReportWrite → Db → Prop)
  (accept : ∀ noted db db' write receivedAt hostId reportId host inserted, write ∈ W → P noted db →
    Authorized write hostId reportId host db →
    Accepted write receivedAt hostId reportId host inserted db db' → P (noted ++ [write]) db')
include accept

theorem storeReport_keeps (f : Faults) (write : ReportWrite) (receivedAt : DateTime)
    (noted : List ReportWrite) (db : Db) (hw : write ∈ W) (h : P noted db) :
    P (noted ++ acceptedReport write (storeReport f write receivedAt db).1)
      (storeReport f write receivedAt db).2 := by
  have outcome := storeReport_cases f write receivedAt db _ _ Prod.mk.eta.symm
  obtain ⟨same, refused⟩ | ⟨answer, hostId, reportId, host, inserted, auth, acc⟩ := outcome
  · have nothing : acceptedReport write (storeReport f write receivedAt db).1 = [] := by
      obtain ⟨e, he⟩ | ⟨_, _, _, _, _, _, _, _, he⟩ := refused
      · simp [he, acceptedReport]
      · simp [he, acceptedReport]
    rw [same, nothing, List.append_nil]
    exact h
  · have noted' : acceptedReport write (storeReport f write receivedAt db).1 = [write] := by
      simp [answer, acceptedReport]
    rw [noted']
    exact accept noted db _ write receivedAt hostId reportId host inserted hw h auth acc

theorem storeSeparately_keeps (reports : List BatchItem) (hW : ∀ item ∈ reports, item.write ∈ W)
    (noted : List ReportWrite) (db : Db) (h : P noted db) :
    P (noted ++ acceptedReports reports (oneByOne storeSeparately reports db).1)
      (oneByOne storeSeparately reports db).2 := by
  induction reports generalizing noted db with
  | nil => simpa [acceptedReports, oneByOne] using h
  | cons item reports ih =>
    have first := storeReport_keeps W P accept ⟨.quiet _, item.faults.statement, item.faults.ties⟩ item.write
      item.receivedAt noted db (hW item List.mem_cons_self) h
    have rest := ih (fun item hi => hW item (List.mem_cons_of_mem _ hi)) _ _ first
    rw [List.append_assoc] at rest
    exact rest

end

/-- What accepting one of its reports keeps, a call that stores reports keeps. -/
theorem stores_keeps (op : Op) (hs : op.Stores) (P : List ReportWrite → Db → Prop)
    (accept : ∀ noted db db' write receivedAt hostId reportId host inserted, write ∈ op.writes →
      P noted db → Authorized write hostId reportId host db →
      Accepted write receivedAt hostId reportId host inserted db db' → P (noted ++ [write]) db')
    (noted : List ReportWrite) (db : Db) (h : P noted db) :
    P (noted ++ op.accepts db) (op.exec db).2 := by
  cases op with
  | storeReport f write receivedAt =>
    exact storeReport_keeps _ P accept f write receivedAt noted db (List.mem_singleton.mpr rfl) h
  | storeReportBatch boundary reports =>
    have outcome := storeReportBatch_cases boundary reports db _ _ Prod.mk.eta.symm
    change P (noted ++ Op.accepts (.storeReportBatch boundary reports) db)
      (storeReportBatch boundary reports db).2
    obtain ⟨⟨e, he⟩, same⟩ | ⟨results, he, _, separate⟩ := outcome
    · have nothing : Op.accepts (.storeReportBatch boundary reports) db = [] := by
        simp [Op.accepts, he]
      rw [same, nothing, List.append_nil]
      exact h
    · have each : Op.accepts (.storeReportBatch boundary reports) db =
          acceptedReports reports results := by simp [Op.accepts, he]
      have kept := storeSeparately_keeps _ P accept reports
        (fun item hi => List.mem_map.mpr ⟨item, hi, rfl⟩) noted db h
      rw [separate] at kept
      rw [each]
      exact kept
  | _ => exact absurd hs id

end HostMonitoring.Store
