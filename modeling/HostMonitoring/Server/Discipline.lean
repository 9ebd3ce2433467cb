import HostMonitoring.Model.ValidReports
import HostMonitoring.Server.Contract

namespace HostMonitoring.Server

open HostMonitoring.Framework
open HostMonitoring.Framework.World (History historyContract)
open HostMonitoring.Admission
open HostMonitoring.Model
open HostMonitoring.Protocol
open HostMonitoring.Store
open HostMonitoring.Telemetry (TelemetrySubmitError)

theorem got_concat {h : Past} {o o' : Call} {a : Answer o} {a' : Answer o'} :
    Past.Got (h ++ [⟨o', a'⟩]) o a ↔ h.Got o a ∨ (⟨o, a⟩ : (o : Call) × Answer o) = ⟨o', a'⟩ := by
  simp [Past.Got]

theorem Past.Got.concat {h : Past} {o : Call} {a : Answer o} (got : h.Got o a)
    (e : (o : Call) × Answer o) : Past.Got (h ++ [e]) o a := List.mem_append_left _ got

theorem got_last (h : Past) (o : Call) (a : Answer o) : Past.Got (h ++ [⟨o, a⟩]) o a :=
  List.mem_append_right _ (List.mem_singleton.mpr rfl)

theorem Quiet.concat {h : Past} (quiet : Quiet h) {o : Call} (a : Answer o) (ho : passive o = true) :
    Quiet (h ++ [⟨o, a⟩]) := by
  intro e he
  rcases List.mem_append.mp he with he | he
  · exact quiet e he
  · rw [List.mem_singleton.mp he]
    exact ho

theorem Quiet.not_got {h : Past} (quiet : Quiet h) {o : Call} {a : Answer o}
    (ho : passive o = false) : ¬h.Got o a := by
  intro got
  have active := quiet _ got
  rw [ho] at active
  cases active

theorem Error.status_ge (e : Error) : 400 ≤ e.status := by
  cases e <;> simp [Error.status]

section
variable {tokenHash : String → String}

theorem answered_quiet {request : Request} {h : Past} {r : Response} (quiet : Quiet h)
    (failed : 400 ≤ r.status) : Answered tokenHash request h r where
  refused _ _ := ⟨fun _ _ got => absurd got (quiet.not_got rfl),
    fun _ _ got => absurd got (quiet.not_got rfl)⟩
  accepted is202 := by omega
  done success := by omega
  told success := by omega

/-- A read-only request has nothing else to account for. -/
theorem answered_read {request : Request} {h : Past} {r : Response} (reads : request.mutates = false)
    (ok : r.status = 200) (tells : request.Tells tokenHash h.Read r.body) :
    Answered tokenHash request h r where
  refused failed := by omega
  accepted is202 := by omega
  done _ mutates := by rw [reads] at mutates; cases mutates
  told _ _ := tells

end

/-- The one mutation a connection made, with its result. -/
structure Did (h : Past) (m : Mutation) (r : m.Result) : Prop where
  got : h.Got (.mutate m) (.ok r)
  only : ∀ m' a, h.Got (.mutate m') a →
    (⟨.mutate m', a⟩ : (o : Call) × Answer o) = ⟨.mutate m, .ok r⟩
  noReport : ∀ write call, ¬h.Got (.submit write) call

theorem Quiet.did {h : Past} (quiet : Quiet h) (m : Mutation) (r : m.Result) :
    Did (h ++ [⟨.mutate m, .ok r⟩]) m r where
  got := got_last _ _ _
  only m' a got := (got_concat.mp got).resolve_left (quiet.not_got rfl)
  noReport write call got := by
    rcases got_concat.mp got with got | same
    · exact quiet.not_got rfl got
    · cases congrArg Sigma.fst same

theorem Did.concat {h : Past} {m : Mutation} {r : m.Result} (did : Did h m r) {o : Call}
    (a : Answer o) (ho : passive o = true) : Did (h ++ [⟨o, a⟩]) m r where
  got := did.got.concat _
  only m' a' got := by
    rcases got_concat.mp got with got | same
    · exact did.only m' a' got
    · have call := congrArg Sigma.fst same
      simp only at call
      rw [← call] at ho
      cases ho
  noReport write call got := by
    rcases got_concat.mp got with got | same
    · exact did.noReport write call got
    · have call := congrArg Sigma.fst same
      simp only at call
      rw [← call] at ho
      cases ho

section
variable {tokenHash : String → String}

/-- An error of the client tells that nothing was done. -/
theorem answered_error {request : Request} {h : Past} {e : Error}
    (refused : e.status < 500 → Refused h) : Answered tokenHash request h e.intoResponse := by
  have failed := e.status_ge
  have same : e.intoResponse.status = e.status := rfl
  constructor
  · intro _ below
    rw [same] at below
    exact refused below
  · intro is202
    omega
  · intro success
    omega
  · intro success
    omega

theorem Did.answered_refused {request : Request} {h : Past} {m : Mutation} {r : m.Result}
    (did : Did h m r) (refuses : m.Refuses r) (e : Error) :
    Answered tokenHash request h e.intoResponse := by
  apply answered_error
  intro _
  refine ⟨?_, fun write call got => absurd got (did.noReport write call)⟩
  intro m' r' got
  cases did.only m' (.ok r') got
  exact refuses

theorem Did.answered_done {request : Request} {h : Past} {m : Mutation} {r : m.Result}
    (did : Did h m r) {response : Response} (mutates : request.mutates = true)
    (success : response.status < 300) (created : response.status ≠ 202)
    (confirms : m.Confirms response.body r) : Answered tokenHash request h response where
  refused failed := by omega
  accepted is202 := absurd is202 created
  done _ _ := ⟨m, r, did.got, confirms⟩
  told _ reads := by rw [mutates] at reads; cases reads

/-- A structure, so that nobody runs the handler to look at the statement. -/
structure Handler.Meets {α : Type} (tokenHash : String → String)
    (post : Except Error α → Past → Prop) (x : Handler α) (h : Past) : Prop where
  meets : Fallible.Meets (contract tokenHash) post x h

/-- What a handler of the request ends with. -/
def Answers (tokenHash : String → String) (request : Request) (result : Except Error Response)
    (h : Past) : Prop :=
  Answered tokenHash request h (intoResponse result)

namespace Handler

variable {α β : Type} {post : Except Error β → Past → Prop} {request : Request} {h : Past}

/-- Both ways a step can end, before the rest. -/
theorem Meets.bind {mid : Except Error α → Past → Prop} {x : Handler α} {f : α → Handler β}
    (asked : Handler.Meets tokenHash mid x h) (fails : ∀ e h', mid (.error e) h' → post (.error e) h')
    (goes : ∀ a h', mid (.ok a) h' → Handler.Meets tokenHash post (f a) h') :
    Handler.Meets tokenHash post (x >>= f) h :=
  ⟨asked.meets.bind fails fun a h' ended => (goes a h' ended).meets⟩

theorem bind_ofExcept {x : Except Error α} {f : α → Handler β}
    (fails : ∀ e, x = .error e → post (.error e) h)
    (goes : ∀ a, x = .ok a → Handler.Meets tokenHash post (f a) h) :
    Handler.Meets tokenHash post (ofExcept x >>= f) h := by
  cases x with
  | error e => exact ⟨fails e rfl⟩
  | ok a => exact ⟨(goes a rfl).meets⟩

theorem bind_perform {o : Call} {f : Answer o → Handler β} (owes : Owes tokenHash o h)
    (goes : ∀ a, Possible o a → Handler.Meets tokenHash post (f a) (h ++ [⟨o, a⟩])) :
    Handler.Meets tokenHash post (perform o >>= f) h := by
  refine ⟨owes, ?_⟩
  intro a h' he
  obtain ⟨possible, rfl⟩ := he
  exact (goes a possible).meets

theorem meets_return {r : Response} (answered : Answered tokenHash request h r) :
    Handler.Meets tokenHash (Answers tokenHash request) (pure r) h := ⟨answered⟩

theorem meets_fail {e : Error} (answered : Answered tokenHash request h e.intoResponse) :
    Handler.Meets tokenHash (Answers tokenHash request) (throw e) h := ⟨answered⟩

section
variable (quiet : Quiet h)
include quiet

theorem fails (e : Error) : Answers tokenHash request (.error e) h :=
  answered_quiet quiet e.status_ge

theorem bind_okOr {x : Option α} {e : Error} {f : α → Handler Response}
    (goes : ∀ a, x = some a → Handler.Meets tokenHash (Answers tokenHash request) (f a) h) :
    Handler.Meets tokenHash (Answers tokenHash request) (okOr x e >>= f) h := by
  apply bind_ofExcept
  · exact fun e _ => fails quiet e
  · intro a ha
    cases x with
    | none => cases ha
    | some _ =>
      cases ha
      exact goes _ rfl

theorem bind_ensure {good : Prop} [Decidable good] {e : Error} {f : Unit → Handler Response}
    (goes : good → Handler.Meets tokenHash (Answers tokenHash request) (f ()) h) :
    Handler.Meets tokenHash (Answers tokenHash request) (ensure good e >>= f) h := by
  apply bind_ofExcept
  · exact fun e _ => fails quiet e
  · intro a ha
    split at ha
    · rename_i hg
      exact goes hg
    · cases ha

theorem bind_validated {x : Except String α} {f : α → Handler Response}
    (goes : ∀ a, x = .ok a → Handler.Meets tokenHash (Answers tokenHash request) (f a) h) :
    Handler.Meets tokenHash (Answers tokenHash request) (validated x >>= f) h := by
  apply bind_ofExcept
  · exact fun e _ => fails quiet e
  · intro a ha
    cases x with
    | error _ => cases ha
    | ok _ =>
      cases ha
      exact goes _ rfl

/-- A passive call whose error the handler passes on. -/
theorem bind_call {o : Call} {x : Answer o → Except Error α} {f : α → Handler Response}
    (ho : passive o = true) (owes : Owes tokenHash o h)
    (goes : ∀ a r, x a = .ok r →
      Handler.Meets tokenHash (Answers tokenHash request) (f r) (h ++ [⟨o, a⟩])) :
    Handler.Meets tokenHash (Answers tokenHash request)
      ((do ofExcept (x (← perform o)) : Handler α) >>= f) h := by
  have asked : Handler.Meets tokenHash (fun r h' => ∃ a, x a = r ∧ h' = h ++ [⟨o, a⟩])
      (do ofExcept (x (← perform o)) : Handler α) h := by
    apply bind_perform owes
    intro a _
    exact ⟨⟨a, rfl, rfl⟩⟩
  apply asked.bind
  · intro e h' ended
    obtain ⟨a, _, rfl⟩ := ended
    exact fails (quiet.concat a ho) e
  · intro r h' ended
    obtain ⟨a, ha, rfl⟩ := ended
    exact goes a r ha

theorem bind_checkAdmission {check : Check} {f : Unit → Handler Response}
    (goes : Handler.Meets tokenHash (Answers tokenHash request) (f ())
      (h ++ [⟨.checkAdmission check, .ok ()⟩])) :
    Handler.Meets tokenHash (Answers tokenHash request) (checkAdmission check >>= f) h := by
  apply bind_call (o := .checkAdmission check) quiet rfl trivial
  intro a r ha
  cases a with
  | error _ => cases ha
  | ok _ => exact goes

theorem bind_allowReport {hostId : String} {f : Unit → Handler Response}
    (goes : Handler.Meets tokenHash (Answers tokenHash request) (f ())
      (h ++ [⟨.allowReport hostId, .ok ()⟩])) :
    Handler.Meets tokenHash (Answers tokenHash request) (allowReport hostId >>= f) h := by
  apply bind_call (o := .allowReport hostId) quiet rfl trivial
  intro a r ha
  cases a with
  | error _ => cases ha
  | ok _ => exact goes

theorem bind_query {q : Query} {f : q.Result → Handler Response}
    (goes : ∀ r, Handler.Meets tokenHash (Answers tokenHash request) (f r) (h ++ [⟨.query q, .ok r⟩])) :
    Handler.Meets tokenHash (Answers tokenHash request) (query q >>= f) h := by
  apply bind_call (o := .query q) quiet rfl trivial
  intro a r ha
  cases a with
  | error _ => cases ha
  | ok _ =>
    cases ha
    exact goes _

theorem bind_mutate {m : Mutation} {f : m.Result → Handler Response}
    (permits : ∃ asked, h.Got .receive asked ∧ asked.Permits tokenHash h m)
    (goes : ∀ r, Possible (.mutate m) (.ok r) → Did (h ++ [⟨.mutate m, .ok r⟩]) m r →
      Handler.Meets tokenHash (Answers tokenHash request) (f r) (h ++ [⟨.mutate m, .ok r⟩])) :
    Handler.Meets tokenHash (Answers tokenHash request) (mutate m >>= f) h := by
  have asked : Handler.Meets tokenHash
      (fun r h' => ∃ a, a.mapError Error.database = r ∧ Possible (.mutate m) a ∧
        h' = h ++ [⟨.mutate m, a⟩]) (mutate m) h := by
    apply bind_perform (o := .mutate m) ⟨quiet, permits⟩
    intro a possible
    exact ⟨⟨a, rfl, possible, rfl⟩⟩
  apply asked.bind
  · intro e h' ended
    obtain ⟨a, ha, _, rfl⟩ := ended
    cases a with
    | ok _ => cases ha
    | error _ =>
      cases ha
      exact answered_error fun below => absurd below (by simp [Error.status])
  · intro r h' ended
    obtain ⟨a, ha, possible, rfl⟩ := ended
    cases a with
    | error _ => cases ha
    | ok _ =>
      cases ha
      exact goes _ possible (quiet.did m _)

/-- The writer is asked and then waited for. -/
theorem bind_submit {write : ReportWrite} {f : Bool × DateTime → Handler Response}
    (submits : Submits tokenHash h write)
    (fails : ∀ call e, Answers tokenHash request (.error (submitError e))
      (h ++ [⟨.submit write, call⟩] ++ [⟨.submitted call, .error e⟩]))
    (goes : ∀ call r, Handler.Meets tokenHash (Answers tokenHash request) (f r)
      (h ++ [⟨.submit write, call⟩] ++ [⟨.submitted call, .ok r⟩])) :
    Handler.Meets tokenHash (Answers tokenHash request) (submit write >>= f) h := by
  have asked : Handler.Meets tokenHash
      (fun r h' => ∃ call a, a.mapError submitError = r ∧
        h' = h ++ [⟨.submit write, call⟩] ++ [⟨.submitted call, a⟩]) (submit write) h := by
    apply bind_perform (o := .submit write) ⟨quiet, submits⟩
    intro call _
    apply bind_perform (o := .submitted call) ⟨write, got_last _ _ _⟩
    intro a _
    exact ⟨⟨call, a, rfl, rfl⟩⟩
  apply asked.bind
  · intro e h' ended
    obtain ⟨call, a, ha, rfl⟩ := ended
    cases a with
    | ok _ => cases ha
    | error e =>
      cases ha
      exact fails call e
  · intro r h' ended
    obtain ⟨call, a, ha, rfl⟩ := ended
    cases a with
    | error _ => cases ha
    | ok r =>
      cases ha
      exact goes call r

end
end Handler

theorem notStored_of_status (e : TelemetrySubmitError) (h : (submitError e).status < 500) :
    notStored e = true := by
  cases e with
  | queueFull => rfl
  | writerUnavailable => exact absurd h (by simp [submitError, Error.status])
  | responseDeadline => exact absurd h (by simp [submitError, Error.status])
  | store error => rfl

section
variable {h : Past} (quiet : Quiet h) {write : ReportWrite} {call : Nat}
  {a : Answer (.submitted call)}
include quiet

theorem not_mutated {m : Mutation} {b : Answer (.mutate m)} :
    ¬Past.Got (h ++ [⟨.submit write, call⟩] ++ [⟨.submitted call, a⟩]) (.mutate m) b := by
  intro got
  rcases got_concat.mp got with got | same
  · rcases got_concat.mp got with got | same
    · exact quiet.not_got rfl got
    · cases congrArg Sigma.fst same
  · cases congrArg Sigma.fst same

/-- The connection queued no other report. -/
theorem submitted_last {write' : ReportWrite} {call' : Nat}
    (got : Past.Got (h ++ [⟨.submit write, call⟩] ++ [⟨.submitted call, a⟩]) (.submit write')
      call') : write' = write ∧ call' = call := by
  rcases got_concat.mp got with got | same
  · rcases got_concat.mp got with got | same
    · exact absurd got (quiet.not_got rfl)
    · cases same
      exact ⟨rfl, rfl⟩
  · cases congrArg Sigma.fst same

end

theorem meets_report (headers : HeaderMap) (body : ClientReport) {h : Past} (quiet : Quiet h)
    (received : h.Got .receive (.report headers body)) :
    Handler.Meets tokenHash (Answers tokenHash (.report headers body)) (report tokenHash headers body) h := by
  apply Handler.bind_okOr quiet
  intro credential hc
  apply Handler.bind_query quiet
  intro found
  have quiet := quiet.concat (o := .query (.hostForToken (tokenHash credential))) (.ok found) rfl
  apply Handler.bind_okOr quiet
  intro host hf
  subst hf
  apply Handler.bind_ensure quiet
  intro same
  apply Handler.bind_perform (o := .now) trivial
  intro now _
  have quiet := quiet.concat (o := .now) now rfl
  apply Handler.bind_validated quiet
  intro metrics valid
  apply Handler.bind_allowReport quiet
  have quiet := quiet.concat (o := .allowReport body.host.id) (.ok ()) rfl
  have submits : Submits tokenHash _ ⟨body, tokenHash credential, metrics⟩ :=
    { credential := ⟨headers, credential, ((received.concat _).concat _).concat _, hc, rfl⟩
      host := ⟨host, ((got_last h _ _).concat _).concat _, same⟩
      valid := ⟨now, (got_last _ (.now : Call) now).concat _, valid⟩
      allowed := got_last _ _ _ }
  apply Handler.bind_submit quiet submits
  · intro call e
    apply answered_error
    intro below
    refine ⟨fun m r got => absurd got (not_mutated quiet), ?_⟩
    intro write call' got
    refine ⟨e, notStored_of_status e below, ?_⟩
    rw [(submitted_last quiet got).2]
    exact got_last _ _ _
  · intro call result
    refine ⟨fun failed => ?_, fun _ => ?_, fun success => ?_, fun success => ?_⟩
    · exact absurd failed (by simp [intoResponse])
    · exact ⟨headers, _, call, result, rfl, (got_last _ _ _).concat _, got_last _ _ _, rfl⟩
    · intro mutates
      cases mutates
    · intro _
      exact ⟨credential, host, now, metrics, result.1, result.2, hc,
        ((((got_last h _ _).concat _).concat _).concat _).concat _, same, valid, rfl⟩

/-- A handler that only reads. -/
theorem meets_read {request : Request} {h : Past} {r : Response} (reads : request.mutates = false)
    (ok : r.status = 200) (tells : request.Tells tokenHash h.Read r.body) :
    Handler.Meets tokenHash (Answers tokenHash request) (pure r) h :=
  Handler.meets_return (answered_read reads ok tells)

theorem meets_createPairing (peer : IpAddr) (asked : ClientPairingRequest) {h : Past}
    (quiet : Quiet h) (received : h.Got .receive (.createPairing peer asked)) :
    Handler.Meets tokenHash (Answers tokenHash (.createPairing peer asked)) (createPairing peer asked) h := by
  apply Handler.bind_validated quiet
  intro u valid
  apply Handler.bind_checkAdmission quiet
  have quiet := quiet.concat (o := .checkAdmission (.create peer asked.host.id)) (.ok ()) rfl
  apply Handler.bind_mutate quiet
  · exact ⟨_, received.concat _, rfl, valid, got_last _ _ _⟩
  · intro result _ did
    cases result with
    | ready requestId expiresAt created =>
      apply Handler.bind_perform (o := .now) trivial
      intro now _
      have did := did.concat (o := .now) now rfl
      apply Handler.meets_return
      cases created with
      | true =>
        apply did.answered_done rfl (by simp) (by simp)
        exact ⟨requestId, expiresAt, true, _, rfl, rfl⟩
      | false =>
        apply did.answered_done rfl (by simp) (by simp)
        exact ⟨requestId, expiresAt, false, _, rfl, rfl⟩
    | expired => exact Handler.meets_fail (did.answered_refused (by simp [Mutation.Refuses]) _)
    | conflict => exact Handler.meets_fail (did.answered_refused (by simp [Mutation.Refuses]) _)
    | atCapacity => exact Handler.meets_fail (did.answered_refused (by simp [Mutation.Refuses]) _)
    | deviceAtCapacity => exact Handler.meets_fail (did.answered_refused (by simp [Mutation.Refuses]) _)

theorem meets_pairingPublic (peer : IpAddr) (id : String) {h : Past} (quiet : Quiet h) :
    Handler.Meets tokenHash (Answers tokenHash (.pairingPublic peer id)) (pairingPublic peer id) h := by
  apply Handler.bind_validated quiet
  intro requestId canonical
  apply Handler.bind_checkAdmission quiet
  have quiet := quiet.concat (o := .checkAdmission (.poll peer requestId)) (.ok ()) rfl
  apply Handler.bind_query quiet
  intro found
  apply Handler.bind_okOr (quiet.concat (o := .query (.pairingPublic requestId)) (.ok found) rfl)
  intro summary hf
  subst hf
  apply meets_read rfl rfl
  exact ⟨requestId, summary, (canonicalUuid_ok _ _ _).mp canonical, got_last _ _ _, rfl⟩

theorem meets_pairingStatus (peer : IpAddr) (headers : HeaderMap) (id : String) {h : Past}
    (quiet : Quiet h) :
    Handler.Meets tokenHash (Answers tokenHash (.pairingStatus peer headers id))
      (pairingStatus tokenHash peer headers id) h := by
  apply Handler.bind_validated quiet
  intro requestId canonical
  apply Handler.bind_checkAdmission quiet
  have quiet := quiet.concat (o := .checkAdmission (.poll peer requestId)) (.ok ()) rfl
  apply Handler.bind_okOr quiet
  intro secret presented
  apply Handler.bind_ensure quiet
  intro _
  apply Handler.bind_query quiet
  intro found
  apply Handler.bind_okOr
    (quiet.concat (o := .query (.pairingStatus requestId (tokenHash secret))) (.ok found) rfl)
  intro status hf
  subst hf
  apply meets_read rfl rfl
  exact ⟨requestId, secret, status.1, status.2, (canonicalUuid_ok _ _ _).mp canonical, presented,
    got_last _ _ _, rfl⟩

/-- The checks of an activation are those of the request behind it. -/
theorem meets_activate {request : Request} (mutates : request.mutates = true) (source : IpAddr) (asked : ActivateClientRequest)
    (actor : String) {h : Past} (quiet : Quiet h)
    (permits : ∀ e requestId activationHash,
      Activates tokenHash (h ++ [e]) source asked requestId activationHash →
        ∃ received, Past.Got (h ++ [e]) .receive received ∧
          received.Permits tokenHash (h ++ [e]) (.activate requestId activationHash actor)) :
    Handler.Meets tokenHash (Answers tokenHash request) (activate tokenHash source asked actor) h := by
  apply Handler.bind_validated quiet
  intro requestId canonical
  apply Handler.bind_checkAdmission quiet
  have quiet := quiet.concat (o := .checkAdmission (.activation source requestId)) (.ok ()) rfl
  apply Handler.bind_ensure quiet
  intro _
  have activates : Activates tokenHash
      (h ++ [⟨.checkAdmission (.activation source requestId), .ok ()⟩])
      source asked requestId (tokenHash asked.activationCode) :=
    ⟨(canonicalUuid_ok _ _ _).mp canonical, rfl, got_last _ _ _⟩
  apply Handler.bind_mutate quiet (permits _ _ _ activates)
  intro result _ did
  cases result with
  | active instanceId =>
    apply Handler.meets_return
    apply did.answered_done mutates (by simp) (by simp)
    exact ⟨instanceId, rfl, rfl⟩
  | notFound => exact Handler.meets_fail (did.answered_refused (by simp [Mutation.Refuses]) _)
  | invalidCode => exact Handler.meets_fail (did.answered_refused (by simp [Mutation.Refuses]) _)
  | expired => exact Handler.meets_fail (did.answered_refused (by simp [Mutation.Refuses]) _)
  | conflict => exact Handler.meets_fail (did.answered_refused (by simp [Mutation.Refuses]) _)

section
variable {headers : HeaderMap} {h : Past} (quiet : Quiet h)
include quiet

theorem meets_listHosts (limit offset : Option Int) :
    Handler.Meets tokenHash (Answers tokenHash (.console headers (.listHosts limit offset)))
      (listHosts limit offset) h := by
  apply Handler.bind_query quiet
  intro total
  have quiet := quiet.concat (o := .query .hostCount) (.ok total) rfl
  apply Handler.bind_query quiet
  intro rows
  apply Handler.bind_perform (o := .now) trivial
  intro now _
  apply meets_read rfl rfl
  exact ⟨total, rows, now, ((got_last h _ _).concat _).concat _, (got_last _ _ _).concat _, rfl⟩

theorem meets_hostDetail (id : String) :
    Handler.Meets tokenHash (Answers tokenHash (.console headers (.hostDetail id))) (hostDetail id) h := by
  apply Handler.bind_validated quiet
  intro hostId canonical
  apply Handler.bind_query quiet
  intro found
  have quiet := quiet.concat (o := .query (.hostRow hostId)) (.ok found) rfl
  apply Handler.bind_okOr quiet
  intro row hf
  subst hf
  apply Handler.bind_query quiet
  intro latest
  apply Handler.bind_perform (o := .now) trivial
  intro now _
  apply meets_read rfl rfl
  exact ⟨hostId, row, latest, now, (canonicalUuid_ok _ _ _).mp canonical,
    ((got_last h _ _).concat _).concat _, (got_last _ _ _).concat _, rfl⟩

theorem meets_hostHistory (id : String) (fromTime toTime : Option DateTime) (limit : Option Int) :
    Handler.Meets tokenHash (Answers tokenHash (.console headers (.hostHistory id fromTime toTime limit)))
      (hostHistory id fromTime toTime limit) h := by
  apply Handler.bind_validated quiet
  intro hostId canonical
  apply Handler.bind_ensure quiet
  intro _
  apply Handler.bind_query quiet
  intro found
  have quiet := quiet.concat (o := .query (.hostExists hostId)) (.ok found) rfl
  apply Handler.bind_ensure quiet
  intro hf
  subst hf
  apply Handler.bind_query quiet
  intro points
  have same := (canonicalUuid_ok _ _ _).mp canonical
  apply meets_read rfl rfl
  refine ⟨hostId, points, same, (got_last h _ _).concat _, got_last _ _ _, ?_⟩
  show Body.history hostId.toText points = .history id points
  rw [same]

theorem meets_listInstances :
    Handler.Meets tokenHash (Answers tokenHash (.console headers .listInstances)) listInstances h := by
  apply Handler.bind_query quiet
  intro instances
  apply meets_read rfl rfl
  exact ⟨instances, got_last _ _ _, rfl⟩

variable {principal : String}

theorem meets_createInstance (displayName : Option String)
    (received : h.Got .receive (.console headers (.createInstance displayName)))
    (signedIn : h.Got (.authenticate headers (.createInstance displayName)) (.ok principal)) :
    Handler.Meets tokenHash (Answers tokenHash (.console headers (.createInstance displayName)))
      (createInstance principal displayName) h := by
  apply Handler.bind_checkAdmission quiet
  have quiet := quiet.concat (o := .checkAdmission (.inviteAccount principal)) (.ok ()) rfl
  apply Handler.bind_validated quiet
  intro name valid
  apply Handler.bind_mutate quiet
  · exact ⟨_, received.concat _, principal, signedIn.concat _, rfl, valid, got_last _ _ _⟩
  · intro result possible did
    obtain ⟨result, activationCode⟩ := result
    cases result with
    | created summary =>
      cases activationCode with
      | none => exact absurd rfl (possible summary none rfl)
      | some activationCode =>
        apply Handler.meets_return
        apply did.answered_done rfl (by simp) (by simp)
        exact ⟨summary, activationCode, rfl, rfl⟩
    | conflict => exact Handler.meets_fail (did.answered_refused (by simp [Mutation.Refuses]) _)

theorem meets_cancelInstance (id : String)
    (received : h.Got .receive (.console headers (.cancelInstance id)))
    (signedIn : h.Got (.authenticate headers (.cancelInstance id)) (.ok principal)) :
    Handler.Meets tokenHash (Answers tokenHash (.console headers (.cancelInstance id)))
      (cancelInstance principal id) h := by
  apply Handler.bind_validated quiet
  intro inviteId canonical
  apply Handler.bind_mutate quiet
  · exact ⟨_, received, principal, signedIn, rfl, (canonicalUuid_ok _ _ _).mp canonical⟩
  · intro result _ did
    cases result with
    | cancelled =>
      apply Handler.meets_return
      exact did.answered_done rfl (by simp) (by simp) ⟨rfl, rfl⟩
    | notFound => exact Handler.meets_fail (did.answered_refused (by simp [Mutation.Refuses]) _)
    | notPending => exact Handler.meets_fail (did.answered_refused (by simp [Mutation.Refuses]) _)

theorem meets_updateRemark (id remark : String)
    (received : h.Got .receive (.console headers (.updateRemark id remark)))
    (signedIn : h.Got (.authenticate headers (.updateRemark id remark)) (.ok principal)) :
    Handler.Meets tokenHash (Answers tokenHash (.console headers (.updateRemark id remark)))
      (updateRemark principal id remark) h := by
  apply Handler.bind_validated quiet
  intro hostId canonical
  apply Handler.bind_validated quiet
  intro name valid
  apply Handler.bind_mutate quiet
  · exact ⟨_, received, principal, signedIn, rfl, (canonicalUuid_ok _ _ _).mp canonical, valid⟩
  · intro found _ did
    cases found with
    | false => exact Handler.meets_fail (did.answered_refused (by simp [Mutation.Refuses]) _)
    | true =>
      apply Handler.meets_return
      exact did.answered_done rfl (by simp) (by simp) ⟨rfl, rfl⟩

theorem meets_deleteHost (id : String)
    (received : h.Got .receive (.console headers (.deleteHost id)))
    (signedIn : h.Got (.authenticate headers (.deleteHost id)) (.ok principal)) :
    Handler.Meets tokenHash (Answers tokenHash (.console headers (.deleteHost id)))
      (deleteHost principal id) h := by
  apply Handler.bind_validated quiet
  intro hostId canonical
  apply Handler.bind_mutate quiet
  · exact ⟨_, received, principal, signedIn, rfl, (canonicalUuid_ok _ _ _).mp canonical⟩
  · intro found _ did
    cases found with
    | false => exact Handler.meets_fail (did.answered_refused (by simp [Mutation.Refuses]) _)
    | true =>
      apply Handler.meets_return
      exact did.answered_done rfl (by simp) (by simp) ⟨rfl, rfl⟩

theorem meets_activateAdmin (peer : IpAddr) (asked : ActivateClientRequest)
    (received : h.Got .receive (.console headers (.activateAdmin peer asked)))
    (signedIn : h.Got (.authenticate headers (.activateAdmin peer asked)) (.ok principal)) :
    Handler.Meets tokenHash (Answers tokenHash (.console headers (.activateAdmin peer asked)))
      (activateAdmin tokenHash principal peer asked) h := by
  apply Handler.bind_checkAdmission quiet
  have quiet := quiet.concat (o := .checkAdmission (.inviteAccount principal)) (.ok ()) rfl
  apply meets_activate rfl peer asked principal quiet
  intro e requestId activationHash activates
  exact ⟨_, (received.concat _).concat _, principal, (signedIn.concat _).concat _, rfl,
    (got_last h _ _).concat _, activates⟩

theorem meets_console (request : ConsoleRequest)
    (received : h.Got .receive (.console headers request))
    (signedIn : h.Got (.authenticate headers request) (.ok principal)) :
    Handler.Meets tokenHash (Answers tokenHash (.console headers request))
      (console tokenHash principal request) h := by
  cases request with
  | listHosts limit offset => exact meets_listHosts quiet limit offset
  | hostDetail id => exact meets_hostDetail quiet id
  | hostHistory id fromTime toTime limit => exact meets_hostHistory quiet id fromTime toTime limit
  | listInstances => exact meets_listInstances quiet
  | createInstance displayName => exact meets_createInstance quiet displayName received signedIn
  | cancelInstance id => exact meets_cancelInstance quiet id received signedIn
  | updateRemark id remark => exact meets_updateRemark quiet id remark received signedIn
  | deleteHost id => exact meets_deleteHost quiet id received signedIn
  | activateAdmin peer asked => exact meets_activateAdmin quiet peer asked received signedIn

theorem meets_consoleAdmission (request : ConsoleRequest)
    (received : h.Got .receive (.console headers request)) :
    Handler.Meets tokenHash (Answers tokenHash (.console headers request))
      (consoleAdmission tokenHash headers request) h := by
  apply Handler.bind_perform (o := .authenticate headers request) trivial
  intro answer possible
  have quiet := quiet.concat (o := .authenticate headers request) answer rfl
  cases answer with
  | error response => exact Handler.meets_return (answered_quiet quiet (possible response rfl))
  | ok principal => exact meets_console quiet request (received.concat _) (got_last _ _ _)

end

theorem meets_route (request : Request) {h : Past} (quiet : Quiet h)
    (received : h.Got .receive request) :
    Handler.Meets tokenHash (Answers tokenHash request) (route tokenHash request) h := by
  cases request with
  | report headers body => exact meets_report headers body quiet received
  | createPairing peer asked => exact meets_createPairing peer asked quiet received
  | pairingPublic peer id => exact meets_pairingPublic peer id quiet
  | pairingStatus peer headers id => exact meets_pairingStatus peer headers id quiet
  | activateCapability peer asked =>
    apply meets_activate rfl peer asked _ quiet
    intro e requestId activationHash activates
    exact ⟨_, received.concat _, rfl, activates⟩
  | console headers request => exact meets_consoleAdmission quiet request received

/-- Whatever a connection is answered on the way, it keeps its duties. -/
theorem meets_handle : (handle tokenHash).Meets (contract tokenHash) (fun _ _ => True) [] := by
  refine ⟨rfl, ?_⟩
  intro request h he
  obtain ⟨_, rfl⟩ := he
  show Program.Meets (contract tokenHash) _ ((route tokenHash request).run >>= fun result =>
    Program.ask (Call.respond (intoResponse result))) [⟨.receive, request⟩]
  apply Program.Meets.bind
  have quiet : Quiet [⟨.receive, request⟩] := by simp [Quiet, passive]
  have routed : Handler.Meets tokenHash (Answers tokenHash request) (route tokenHash request)
      [⟨.receive, request⟩] := meets_route request quiet (List.mem_singleton.mpr rfl)
  apply (World.extends_history routed.meets).mono
  intro result h' ended
  obtain ⟨answered, later, rfl⟩ := ended
  have received : Past.Got ([⟨.receive, request⟩] ++ later) .receive request := by simp [Past.Got]
  exact ⟨⟨request, received, answered⟩, fun _ _ _ => trivial⟩

end
end HostMonitoring.Server
