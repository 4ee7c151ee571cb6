import Sequitur.Gateway.Service
import Sequitur.Proofs.Session.Refusals

/-!
# What the service answers

A request asks for one operation on the table of sessions, for how many there are, or for
nothing that can be done. What it asks for is written in its method, its path and its body, and
the service does that and nothing else: it carries the operation out on the table and tells the
reply, or refuses the request and leaves the table alone.

So the tables of the service are tables of runs of operations. In these the forward engine never
fails and every line that it accepts can be shown, so that no answer tells of a failure of the
service itself, and an operation that fails has changed nothing.
-/

namespace Sequitur.Gateway

open SessionTable (Operation Reply)

/-! ### What a request asks for -/

/-- The identifier that a name in a path is read as. -/
def idOfName? (name : String) : Option Uuid := (decodedName? name).bind Uuid.ofString?

/-- The operation that a request asks for by the route of its path and a method. -/
inductive Asks (drawn : Uuid) (request : Request) : Route → String → Operation → Prop where
  | create {body : Json} {limit : Int} : readBody Json.anyValue request = .ok body →
      limitOfJson ((body.get? "limit").getD .null) = .ok limit →
      Asks drawn request .sessions "POST" (.create drawn limit)
  | list : Asks drawn request .sessions "GET" .list
  | delete {name : String} {id : Uuid} : idOfName? name = some id →
      Asks drawn request (.session name) "DELETE" (.delete id)
  | lines {name : String} {id : Uuid} : idOfName? name = some id →
      Asks drawn request (.lines name) "GET" (.lines id)
  | addLines {name : String} {id : Uuid} {lines : List String} : idOfName? name = some id →
      readBody linesBody request = .ok lines →
      Asks drawn request (.lines name) "POST" (.addLines id lines)
  | search {name : String} {id : Uuid} : idOfName? name = some id →
      Asks drawn request (.search name) "POST" (.search id)

/-- How a reply of the table is told. Snapshots are not told. -/
inductive Tells : Reply → Response → Prop where
  | made (id : Uuid) :
      Tells (.made (.ok id)) (.withJson 201 (.record [("id", .string id.toString)]))
  | deleted : Tells (.deleted (.ok ())) (.bare 204)
  | lines (lines : List String) :
      Tells (.lines (.ok lines)) (.withJson 200 (.record [("lines", .strings lines)]))
  | summaries (summaries : List SessionSummary) :
      Tells (.summaries summaries) (.withJson 200 (.array (summaries.map summaryJson)))
  | failed {reply : Reply} {failure : Failure} : reply.failure? = some failure →
      Tells reply (.ofFailure failure)

/-- The answer to a request for the number of sessions. -/
def healthResponse (table : SessionTable σ) : Response :=
  .withJson 200 (.record [("status", .string "ok"), ("sessions", .nat table.size)])

variable {kind : EngineKind σ} {table : SessionTable σ} {drawn : Uuid} {request : Request}
  {answered : Response × SessionTable σ}

/-- The answer tells the reply to an operation, and the table is that after the operation. -/
def CarriesOut (kind : EngineKind σ) (table : SessionTable σ) (operation : Operation)
    (answered : Response × SessionTable σ) : Prop :=
  Tells (table.perform kind operation).1 answered.1 ∧
    answered.2 = (table.perform kind operation).2

/-- The answer says that nothing can be done, and nothing was done. -/
def Refuses (table : SessionTable σ) (answered : Response × SessionTable σ) : Prop :=
  400 ≤ answered.1.status ∧ answered.1.status < 500 ∧ answered.2 = table

theorem refuses_bare {status : Nat} (hclient : 400 ≤ status ∧ status < 500) :
    Refuses table (.bare status, table) :=
  ⟨hclient.1, hclient.2, rfl⟩

theorem statusOf_of_isRefusal {failure : Failure} (h : failure.IsRefusal) :
    400 ≤ Response.statusOf failure ∧ Response.statusOf failure < 500 := by
  cases h <;> simp [Response.statusOf]

theorem refuses_ofFailure {failure : Failure} (h : failure.IsRefusal) :
    Refuses table (.ofFailure failure, table) :=
  refuses_bare (statusOf_of_isRefusal h)

theorem isRefusal_of_readBody {reader : Json.Reader α} {failure : Failure}
    (h : readBody reader request = .error failure) : failure.IsRefusal := by
  unfold readBody at h
  split at h
  · split at h
    · simp at h
    all_goals
      rw [← Except.error.inj h]
      exact .argument _
  · rw [← Except.error.inj h]
    exact .argument _

theorem isRefusal_of_limitOfJson {value : Json} {failure : Failure}
    (h : limitOfJson value = .error failure) : failure.IsRefusal := by
  unfold limitOfJson at h
  split at h
  · split at h
    · simp at h
    · rw [← Except.error.inj h]
      exact .argument _
  · rw [← Except.error.inj h]
    exact .argument _

/-! ### Requests that ask for an operation -/

theorem onSession_of_idOfName? {name : String} {id : Uuid} (h : idOfName? name = some id)
    (work : Uuid → Response × SessionTable σ) : onSession table name work = work id := by
  obtain ⟨decoded, hdecoded, hid⟩ := Option.bind_eq_some_iff.mp h
  simp only [onSession, hdecoded, hid]

theorem tells_ofLines (answer : Answer (List String)) :
    Tells (.lines answer) (.ofLines answer) := by
  cases answer with
  | error failure => exact .failed rfl
  | ok lines => exact .lines lines

/-- A request that asks for an operation gets it carried out. -/
theorem carriesOut_of_asks {route : Route} {method : String} {operation : Operation}
    (h : Asks drawn request route method operation) :
    CarriesOut kind table operation (onRoute kind table drawn request route method) := by
  cases h with
  | @create body limit hbody hlimit =>
      have hasked : (readBody Json.anyValue request).bind (fun body =>
          limitOfJson ((body.get? "limit").getD .null)) = .ok limit := by
        rw [hbody]
        exact hlimit
      simp only [onRoute, createSession, hasked, CarriesOut, SessionTable.perform]
      rcases table.create kind drawn limit with ⟨failure | id, longer⟩
      · exact ⟨.failed rfl, rfl⟩
      · exact ⟨.made id, rfl⟩
  | list => exact ⟨.summaries table.summaries, rfl⟩
  | @delete name id hid =>
      simp only [onRoute, onSession_of_idOfName? hid, deleteSession, CarriesOut,
        SessionTable.perform]
      rcases table.delete id with ⟨failure | ⟨⟩, shorter⟩
      · exact ⟨.failed rfl, rfl⟩
      · exact ⟨.deleted, rfl⟩
  | @lines name id hid =>
      simp only [onRoute, onSession_of_idOfName? hid]
      exact ⟨tells_ofLines (table.lines id), rfl⟩
  | @addLines name id lines hid hlines =>
      simp only [onRoute, onSession_of_idOfName? hid, addLines, hlines]
      exact ⟨tells_ofLines (table.addLines kind id lines).1, rfl⟩
  | @search name id hid =>
      simp only [onRoute, onSession_of_idOfName? hid, searchSession]
      exact ⟨tells_ofLines (table.search kind id).1, rfl⟩

/-! ### Requests that ask for nothing -/

/-- A session in a path is worked on by its identifier, and a name that is none is refused. -/
theorem refuses_onSession {name : String} {work : Uuid → Response × SessionTable σ}
    (h : ∀ id, idOfName? name = some id → Refuses table (work id)) :
    Refuses table (onSession table name work) := by
  cases hid : idOfName? name with
  | some id =>
      rw [onSession_of_idOfName? hid]
      exact h id hid
  | none =>
      unfold onSession
      cases hdecoded : decodedName? name with
      | none => exact refuses_bare ⟨by decide, by decide⟩
      | some decoded =>
          rw [idOfName?, hdecoded, Option.bind_some] at hid
          simp only [hid]
          exact refuses_ofFailure (.sessionNotFound decoded)

theorem refuses_createSession
    (hnone : ∀ operation, ¬Asks drawn request .sessions "POST" operation) :
    Refuses table (createSession kind table drawn request) := by
  unfold createSession
  cases hbody : readBody Json.anyValue request with
  | error failure => exact refuses_ofFailure (isRefusal_of_readBody hbody)
  | ok body =>
      cases hlimit : limitOfJson ((body.get? "limit").getD .null) with
      | error failure =>
          simp only [Except.bind, hlimit]
          exact refuses_ofFailure (isRefusal_of_limitOfJson hlimit)
      | ok limit => exact absurd (.create hbody hlimit) (hnone _)

/-- A request that asks for no operation, and not how many sessions there are, is refused. -/
theorem refuses_of_not_asks {route : Route} {method : String}
    (hhealth : ¬(route = .health ∧ method = "GET"))
    (hnone : ∀ operation, ¬Asks drawn request route method operation) :
    Refuses table (onRoute kind table drawn request route method) := by
  unfold onRoute
  split
  · exact absurd ⟨rfl, rfl⟩ hhealth
  · exact absurd .list (hnone _)
  · exact refuses_createSession hnone
  · exact refuses_onSession fun id hid => absurd (.delete hid) (hnone _)
  · exact refuses_onSession fun id hid => absurd (.lines hid) (hnone _)
  · apply refuses_onSession
    intro id hid
    unfold addLines
    cases hlines : readBody linesBody request with
    | error failure => exact refuses_ofFailure (isRefusal_of_readBody hlines)
    | ok lines => exact absurd (.addLines hid hlines) (hnone _)
  · exact refuses_onSession fun id hid => absurd (.search hid) (hnone _)
  · exact refuses_bare ⟨by decide, by decide⟩

/-- A request by a route and a method asks for the number of sessions, for an operation, or for
nothing. -/
theorem onRoute_cases (kind : EngineKind σ) (table : SessionTable σ) (drawn : Uuid)
    (request : Request) (route : Route) (method : String) :
    let answered := onRoute kind table drawn request route method
    (route = .health ∧ method = "GET" ∧ answered = (healthResponse table, table)) ∨
    (∃ operation, Asks drawn request route method operation ∧
      CarriesOut kind table operation answered) ∨
    Refuses table answered := by
  intro answered
  by_cases hhealth : route = .health ∧ method = "GET"
  · obtain ⟨rfl, rfl⟩ := hhealth
    exact .inl ⟨rfl, rfl, rfl⟩
  · by_cases hasks : ∃ operation, Asks drawn request route method operation
    · obtain ⟨operation, hasks⟩ := hasks
      exact .inr (.inl ⟨operation, hasks, carriesOut_of_asks hasks⟩)
    · exact .inr (.inr (refuses_of_not_asks hhealth fun operation hasks' =>
        hasks ⟨operation, hasks'⟩))

/-- What is asked for by `GET` is to be shown something. -/
theorem Asks.snd_perform_of_get {route : Route} {method : String} {operation : Operation}
    (h : Asks drawn request route method operation) (hget : method = "GET") :
    (table.perform kind operation).2 = table := by
  cases h with
  | list | lines => rfl
  | create | delete | addLines | search => simp at hget

theorem snd_onRoute_get (kind : EngineKind σ) (table : SessionTable σ) (drawn : Uuid)
    (request : Request) (route : Route) :
    (onRoute kind table drawn request route "GET").2 = table := by
  rcases onRoute_cases kind table drawn request route "GET" with
    ⟨-, -, heq⟩ | ⟨operation, hasks, -, hafter⟩ | ⟨-, -, hafter⟩
  · rw [heq]
  · exact hafter.trans (hasks.snd_perform_of_get rfl)
  · exact hafter

/-! ### Requests on the tables of the service -/

/-- The table after requests one after the other, each with the identifier that is drawn if it
makes a session. -/
def tableAfter (kind : EngineKind σ) (table : SessionTable σ) (requests : List (Uuid × Request)) :
    SessionTable σ :=
  requests.foldl (fun table asked => (handle kind table asked.1 asked.2).2) table

/-- A request asks for an operation by the route of its path and its method. -/
def AsksFor (drawn : Uuid) (request : Request) (operation : Operation) : Prop :=
  ∃ route, Route.ofTarget? request.target = some route ∧
    Asks drawn request route request.method operation

/-- A request is answered with the number of sessions, by carrying out what it asks for, or not
at all; this does not concern the methods that ask about the service itself. -/
theorem handle_cases (kind : EngineKind σ) (table : SessionTable σ) (drawn : Uuid)
    {request : Request} (hoptions : request.method ≠ "OPTIONS") (hhead : request.method ≠ "HEAD") :
    let answered := handle kind table drawn request
    (Route.ofTarget? request.target = some .health ∧ request.method = "GET" ∧
      answered = (healthResponse table, table)) ∨
    (∃ operation, AsksFor drawn request operation ∧ CarriesOut kind table operation answered) ∨
    Refuses table answered := by
  intro answered
  cases hroute : Route.ofTarget? request.target with
  | none =>
      have hanswered : answered = (.bare 404, table) := by
        simp only [answered, handle, if_neg hoptions, hroute]
      rw [hanswered]
      exact .inr (.inr (refuses_bare ⟨by decide, by decide⟩))
  | some route =>
      have hanswered : answered = onRoute kind table drawn request route request.method := by
        simp only [answered, handle, if_neg hoptions, hroute, if_neg hhead]
      rw [hanswered]
      rcases onRoute_cases kind table drawn request route request.method with
        ⟨hhealth, hget, heq⟩ | ⟨operation, hasks, hcarries⟩ | hrefuses
      · exact .inl ⟨by rw [hhealth], hget, heq⟩
      · exact .inr (.inl ⟨operation, ⟨route, hroute, hasks⟩, hcarries⟩)
      · exact .inr (.inr hrefuses)

theorem carriesOut_of_asksFor {operation : Operation} (hoptions : request.method ≠ "OPTIONS")
    (hhead : request.method ≠ "HEAD") (h : AsksFor drawn request operation) :
    CarriesOut kind table operation (handle kind table drawn request) := by
  obtain ⟨route, hroute, hasks⟩ := h
  simp only [handle, if_neg hoptions, hroute, if_neg hhead]
  exact carriesOut_of_asks hasks

/-- The methods that ask about the service itself leave the table as it is. -/
theorem snd_handle_of_options_or_head
    (hmethod : request.method = "OPTIONS" ∨ request.method = "HEAD") :
    (handle kind table drawn request).2 = table := by
  unfold handle
  split
  · rfl
  · rename_i hoptions
    split
    · rfl
    · rename_i route _
      rw [if_pos (hmethod.resolve_left hoptions)]
      exact snd_onRoute_get kind table drawn request route

/-- A request does to the table what one operation does, or nothing. -/
theorem snd_handle_cases (kind : EngineKind σ) (table : SessionTable σ) (drawn : Uuid)
    (request : Request) : (handle kind table drawn request).2 = table ∨
      ∃ operation, (handle kind table drawn request).2 = (table.perform kind operation).2 := by
  by_cases hmethod : request.method = "OPTIONS" ∨ request.method = "HEAD"
  · exact .inl (snd_handle_of_options_or_head hmethod)
  · rw [not_or] at hmethod
    rcases handle_cases kind table drawn hmethod.1 hmethod.2 with
      ⟨-, -, heq⟩ | ⟨operation, -, -, hafter⟩ | ⟨-, -, hafter⟩
    · exact .inl (by rw [heq])
    · exact .inr ⟨operation, hafter⟩
    · exact .inl hafter

/-- What operations keep up holds in every table of the service. -/
theorem everywhere_tableAfter {p : Session σ → Prop} (hp : Session.Invariant kind p)
    (h : table.Everywhere p) (requests : List (Uuid × Request)) :
    (tableAfter kind table requests).Everywhere p := by
  induction requests generalizing table with
  | nil => exact h
  | cons asked requests ih =>
      have hnext : (handle kind table asked.1 asked.2).2.Everywhere p := by
        rcases snd_handle_cases kind table asked.1 asked.2 with hafter | ⟨operation, hafter⟩
        · rw [hafter]
          exact h
        · rw [hafter]
          exact h.perform hp operation
      exact ih hnext

/-- An operation that is carried out succeeds or is refused. -/
theorem CarriesOut.status_lt_or_refuses {table : SessionTable Forward} {operation : Operation}
    {answered : Response × SessionTable Forward} (htable : table.Everywhere Session.InStep)
    (h : CarriesOut Forward.kind table operation answered) :
    answered.1.status < 400 ∨ Refuses table answered := by
  obtain ⟨response, after⟩ := answered
  obtain ⟨htells, rfl⟩ := h
  generalize hreply : (table.perform Forward.kind operation).1 = reply at htells
  cases htells with
  | made | deleted | lines | summaries => exact .inl (by simp)
  | failed hfailure =>
      rw [← hreply] at hfailure
      obtain ⟨hrefusal, hsame⟩ := htable.refused hfailure
      rw [hsame]
      exact .inr (refuses_ofFailure hrefusal)

/-- On the tables of the service every request succeeds or is refused. -/
theorem onRoute_status_lt_or_refuses {table : SessionTable Forward}
    (htable : table.Everywhere Session.InStep) (drawn : Uuid) (request : Request) (route : Route)
    (method : String) :
    (onRoute Forward.kind table drawn request route method).1.status < 400 ∨
      Refuses table (onRoute Forward.kind table drawn request route method) := by
  rcases onRoute_cases Forward.kind table drawn request route method with
    ⟨-, -, heq⟩ | ⟨operation, -, hcarries⟩ | hrefuses
  · rw [heq]
    exact .inl (by simp [healthResponse, Response.withJson])
  · exact hcarries.status_lt_or_refuses htable
  · exact .inr hrefuses

theorem handle_status_lt_or_refuses {table : SessionTable Forward}
    (htable : table.Everywhere Session.InStep) (drawn : Uuid) (request : Request) :
    (handle Forward.kind table drawn request).1.status < 400 ∨
      Refuses table (handle Forward.kind table drawn request) := by
  unfold handle
  split
  · exact .inl (by simp [Response.bare])
  · split
    · exact .inr (refuses_bare ⟨by decide, by decide⟩)
    · rename_i route _
      split
      · have hsame := snd_onRoute_get Forward.kind table drawn request route
        rcases onRoute_status_lt_or_refuses htable drawn request route "GET" with
          hstatus | ⟨hlow, hhigh, -⟩
        · exact .inl hstatus
        · exact .inr ⟨hlow, hhigh, hsame⟩
      · exact onRoute_status_lt_or_refuses htable drawn request route request.method

theorem snd_handle_of_get (hget : request.method = "GET") :
    (handle kind table drawn request).2 = table := by
  unfold handle
  rw [if_neg (by simp [hget])]
  split
  · rfl
  · rename_i route _
    rw [if_neg (by simp [hget]), hget]
    exact snd_onRoute_get kind table drawn request route

/-- After any requests to a fresh service, the next request is not answered with a failure of
the service, and an answer that tells of a failure, like every answer to `GET`, has left the
table as it was. What a request asks for is carried out; and a request that is answered without a
failure asks for the number of sessions or for an operation, whose result is the answer. -/
theorem handle_ne_serverError_and_carriesOut (before : List (Uuid × Request)) (drawn : Uuid)
    (request : Request) :
    let table := tableAfter Forward.kind .empty before
    let answered := handle Forward.kind table drawn request
    answered.1.status ≠ 500 ∧
    (400 ≤ answered.1.status ∨ request.method = "GET" → answered.2 = table) ∧
    (request.method ≠ "OPTIONS" → request.method ≠ "HEAD" →
      (∀ operation, AsksFor drawn request operation →
        CarriesOut Forward.kind table operation answered) ∧
      (answered.1.status < 400 →
        (Route.ofTarget? request.target = some .health ∧ request.method = "GET" ∧
          answered.1 = healthResponse table) ∨
        ∃ operation, AsksFor drawn request operation ∧
          CarriesOut Forward.kind table operation answered)) := by
  intro table answered
  have htable : table.Everywhere Session.InStep :=
    everywhere_tableAfter Session.inStep_invariant .empty before
  have hstatus := handle_status_lt_or_refuses htable drawn request
  refine ⟨?_, ?_, ?_⟩
  · rcases hstatus with hlow | ⟨-, hhigh, -⟩
    · exact fun hserver => absurd (hserver ▸ hlow) (by decide)
    · exact Nat.ne_of_lt hhigh
  · rintro (herror | hget)
    · rcases hstatus with hlow | ⟨-, -, hsame⟩
      · exact absurd hlow (Nat.not_lt.mpr herror)
      · exact hsame
    · exact snd_handle_of_get hget
  · intro hoptions hhead
    refine ⟨fun operation hasks => carriesOut_of_asksFor hoptions hhead hasks, fun hlow => ?_⟩
    rcases handle_cases Forward.kind table drawn hoptions hhead with
      ⟨hroute, hget, heq⟩ | hcarries | ⟨hclient, -, -⟩
    · exact .inl ⟨hroute, hget, congrArg Prod.fst heq⟩
    · exact .inr hcarries
    · exact absurd hlow (Nat.not_lt.mpr hclient)

/-- Lines are offered to a session in a body that holds nothing but the field, and a body of
another shape is refused. -/
theorem handle_carriesOut_of_lines :
    let target := "/sessions/00000000000000000000000000000000/lines"
    let before : List (Uuid × Request) :=
      [(.zero, ⟨"POST", "/sessions", some "text/json", "\x7b\"limit\": 4\x7d"⟩),
        (.zero, ⟨"POST", "/sessions", some "application/json", "\x7b\"limit\": 8\x7d"⟩)]
    let request : Request :=
      ⟨"POST", target, some "application/json", "[[\"p ->\", \"(p)\", \"p -> q\"]]"⟩
    let misshapen : Request := ⟨"POST", target, some "application/json", "[[\"p\", 1]]"⟩
    let table := tableAfter Forward.kind .empty before
    let answered := handle Forward.kind table .zero request
    let refused := handle Forward.kind table .zero misshapen
    request.method ≠ "OPTIONS" ∧ request.method ≠ "HEAD" ∧
    AsksFor .zero request (.addLines .zero ["p ->", "(p)", "p -> q"]) ∧
    CarriesOut Forward.kind table (.addLines .zero ["p ->", "(p)", "p -> q"]) answered ∧
    answered.1.status = 200 ∧
    (answered.2.find? .zero).map Session.lines = some ["p", "p\n----\nq"] ∧
    refused.1.status = 400 ∧ refused.2 = table := by
  intro target before request misshapen table answered refused
  have hoptions : request.method ≠ "OPTIONS" := by decide
  have hhead : request.method ≠ "HEAD" := by decide
  have hroute : Route.ofTarget? target =
      some (.lines "00000000000000000000000000000000") := by decide +kernel
  have hid : idOfName? "00000000000000000000000000000000" = some .zero := by
    decide +kernel
  have hread : (readBody linesBody request).toOption = some ["p ->", "(p)", "p -> q"] := by
    decide +kernel
  have hbody : readBody linesBody request = .ok ["p ->", "(p)", "p -> q"] := by
    cases hfound : readBody linesBody request with
    | error failure => simp [hfound, Except.toOption] at hread
    | ok lines => simpa [hfound, Except.toOption] using hread
  have hasks : AsksFor .zero request (.addLines .zero ["p ->", "(p)", "p -> q"]) :=
    ⟨_, hroute, .addLines hid hbody⟩
  obtain ⟨-, -, hanswers⟩ := handle_ne_serverError_and_carriesOut before .zero request
  obtain ⟨-, hsame, -⟩ := handle_ne_serverError_and_carriesOut before .zero misshapen
  have hrefused : refused.1.status = 400 := by decide +kernel
  exact ⟨hoptions, hhead, hasks, (hanswers hoptions hhead).1 _ hasks, by decide +kernel,
    by decide +kernel, hrefused, hsame (.inl (Nat.le_of_eq hrefused.symm))⟩

end Sequitur.Gateway
