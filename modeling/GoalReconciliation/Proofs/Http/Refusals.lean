import GoalReconciliation.Session.Report
import Mathlib.Data.List.Forall2

/-!
# Requests without an accepted key

The reconciliation part of the interface answers only requests that show an accepted key; its status is open to all.

* `Request.ToModule`, `Server.Unkeyed` : the requests that this is about, and those that show no accepted key;
* `route_of_find`, `open_routes` : an endpoint is found by a route, and few routes lead to open endpoints;
* `checkKey_unkeyed`, `handle_unkeyed`, `respond_unkeyed` : such a request is refused before the store is asked anything;
* `StepReport.ofStep_response` : what is answered without the store changes nothing in it;
* `unkeyed_refused` : **a sequence of such requests has the same refusals for answers on every database, and leaves each
  as it was**.
-/

namespace GoalReconciliation

set_option autoImplicit false

namespace Http

/-- A request to the reconciliation part of the interface for something else than its status. -/
structure Request.ToModule (r : Request) : Prop where
  method : r.method ∈ ["GET", "POST", "DELETE"]
  path : (parts r.path).take 2 = ["api", "reconciliation"]
  other : ¬(r.method = "GET" ∧ parts r.path = ["api", "reconciliation", "status"])

/-- The request shows no key, or one that the server does not accept. -/
def Server.Unkeyed (server : Server) (r : Request) : Prop :=
  ∀ key, r.header? "X-Internal-Api-Key" = some key → key ∉ server.keys

def Response.Refuses (response : Response) : Prop :=
  300 ≤ response.status

/-! ## Routes -/

theorem route_of_find {method path : String} {endpoint : Endpoint} {texts : List String}
    (h : find method path = .endpoint endpoint texts) :
    ∃ route ∈ routes, route.method = method ∧ Route.texts? route.path (parts path) = some texts ∧
      route.endpoint = endpoint := by
  unfold find at h
  split at h
  · split at h <;> cases h
  · rename_i first captured rest hfitting
    split at h
    · rename_i route found hfound
      cases h
      have hmethod : route.method = method := by simpa using List.find?_some hfound
      have hmem : (route, texts) ∈ fitting path := hfitting ▸ List.mem_of_find?_eq_some hfound
      obtain ⟨route', hroute, htexts⟩ := List.mem_filterMap.mp hmem
      obtain ⟨texts', htexts, hpair⟩ := Option.map_eq_some_iff.mp htexts
      cases hpair
      exact ⟨route, hroute, hmethod, htexts, rfl⟩
    · cases h

theorem Route.texts?_fixed {names : List String} {given texts : List String}
    (h : Route.texts? (names.map Segment.fixed) given = some texts) : given = names := by
  induction names generalizing given with
  | nil =>
      cases given with
      | nil => rfl
      | cons part rest => cases h
  | cons name names ih =>
      cases given with
      | nil => cases h
      | cons part rest =>
          rw [List.map_cons, Route.texts?] at h
          split at h
          · rename_i hpart
            rw [hpart, ih h]
          · cases h

/-- The endpoints that answer without a key: two on the server's health, and the status. -/
theorem open_routes : ∀ route ∈ routes, route.endpoint.isOpen = true →
    route.method = "GET" ∧ ∃ names ∈ [["api", "health"], ["api", "health", "live"], ["api", "reconciliation", "status"]],
      route.path = names.map Segment.fixed := by
  decide

theorem Request.ToModule.needs_key {r : Request} (h : r.ToModule) {endpoint : Endpoint} {texts : List String}
    (hfind : find r.method r.path = .endpoint endpoint texts) : endpoint.isOpen = false := by
  refine Bool.eq_false_iff.mpr fun hopen => ?_
  obtain ⟨route, hroute, hmethod, htexts, rfl⟩ := route_of_find hfind
  obtain ⟨hget, names, hnames, hpath⟩ := open_routes route hroute hopen
  rw [hpath] at htexts
  have hparts := Route.texts?_fixed htexts
  have htake := h.path
  rw [hparts] at htake
  rcases List.mem_cons.mp hnames with rfl | hnames
  · exact absurd htake (by decide)
  · rcases List.mem_cons.mp hnames with rfl | hnames
    · exact absurd htake (by decide)
    · obtain rfl := List.mem_singleton.mp hnames
      exact h.other ⟨hmethod.symm.trans hget, hparts⟩

/-! ## Refusals -/

namespace Server

variable {server : Server} {r : Request}

theorem checkKey_unkeyed (h : server.Unkeyed r) : ∃ refusal, server.checkKey r = .error refusal ∧ 300 ≤ refusal.status := by
  unfold checkKey
  split
  · exact ⟨_, rfl, by decide⟩
  · cases hkey : (r.header? "X-Internal-Api-Key").filter (· ≠ "") with
    | none => exact ⟨_, rfl, by decide⟩
    | some key =>
        have hnot : server.keys.contains key = false := by
          simpa using h key (Option.eq_some_of_filter_eq_some hkey)
        refine ⟨⟨403, .text "Invalid API key"⟩, ?_, by decide⟩
        simp only [hnot]
        rfl

/-- A refusal comes from the request alone. -/
theorem serve_unkeyed (h : server.Unkeyed r) {endpoint : Endpoint} (hkeyed : endpoint.isOpen = false) (now : Timestamp)
    (texts : List String) : ∃ response, server.serve now r endpoint texts = pure response ∧ response.Refuses := by
  obtain ⟨refusal, hrefusal, hstatus⟩ := checkKey_unkeyed h
  unfold serve
  simp only []
  split
  · exact ⟨_, rfl, show 300 ≤ 422 by decide⟩
  · rw [hkeyed, if_neg Bool.false_ne_true, hrefusal]
    exact ⟨_, rfl, hstatus⟩

theorem handle_unkeyed (h : server.Unkeyed r) (hr : r.ToModule) (now : Timestamp) :
    ∃ response, server.handle now r = pure response ∧ response.Refuses := by
  unfold handle
  cases hfind : find r.method r.path with
  | endpoint endpoint texts => exact serve_unkeyed h (hr.needs_key hfind) now texts
  | otherMethod allowed => exact ⟨_, rfl, show 300 ≤ 405 by decide⟩
  | otherPath path => exact ⟨_, rfl, show 300 ≤ 307 by decide⟩
  | nowhere => exact ⟨_, rfl, show 300 ≤ 404 by decide⟩

theorem status_mark (c : Cors) (r : Request) (response : Response) : (c.mark r response).status = response.status := by
  unfold Cors.mark
  split
  · split <;> rfl
  · rfl

theorem status_named (r : Request) (response : Response) : (named r response).status = response.status := by
  unfold named
  split <;> rfl

theorem status_trimmed (r : Request) (response : Response) : (trimmed r response).status = response.status := by
  unfold trimmed
  split <;> rfl

/-- A page that asks whether it may call does so with another method. -/
theorem preflight_of_module (c : Cors) (hr : r.ToModule) : c.preflight? r = none := by
  have hmethod : r.method ≠ "OPTIONS" := by
    have hmem := hr.method
    rintro hoptions
    rw [hoptions] at hmem
    exact absurd hmem (by decide)
  unfold Cors.preflight?
  split
  · exact if_neg hmethod
  · rfl

theorem respond_unkeyed (h : server.Unkeyed r) (hr : r.ToModule) (now : Timestamp) :
    ∃ response, server.respond now r = pure response ∧ response.Refuses := by
  obtain ⟨response, hhandle, hstatus⟩ := handle_unkeyed h hr now
  refine ⟨trimmed r (named r ((⟨server.origins⟩ : Cors).mark r response)), ?_, ?_⟩
  · unfold respond
    simp only []
    rw [preflight_of_module _ hr, hhandle]
    rfl
  · unfold Response.Refuses
    rw [status_trimmed, status_named, status_mark]
    exact hstatus

end Server

end Http

/-! ## Steps of a session -/

section Steps

variable {σ : Type} (b : Backend σ) (t : Tolerance)

def Session.after (steps : List Step) (s : Session σ) : Session σ :=
  steps.foldl (fun s step => (StepReport.ofStep b t step s).2) s

/-- The report on a request that is answered without the store. -/
def StepReport.ofResponse (response : Http.Response) : StepReport :=
  ⟨.ok (.response response), [], [], []⟩

theorem StepReport.changed_self {α : Type} [DecidableEq α] (name : α → String) (value : α → Option Json)
    (items : List α) : changed name value items items = [] := by
  have hnone : (items.filter fun item => !items.any fun old =>
      name old = name item && (old = item || (value old).isNone && (value item).isNone)) = [] := by
    refine List.filter_eq_nil_iff.mpr fun item hitem => ?_
    rw [Bool.not_eq_true, Bool.not_eq_false', List.any_eq_true]
    exact ⟨item, hitem, by simp⟩
  rw [changed, hnone, Sorting.byText, List.mergeSort_nil]

/-- A request that is answered without the store: its answer is reported, and the connection is renewed. -/
theorem StepReport.ofStep_response {server : Http.Server} {r : Http.Request} {now : Timestamp}
    {response : Http.Response} (h : server.respond now r = pure response) (s : Session σ)
    (hrenew : b.contents (b.renew s.state) = b.contents s.state) :
    StepReport.ofStep b t (.serve server r now) s =
      (.ofResponse response, { s with state := b.renew s.state, events := [] }) := by
  unfold ofStep
  simp only [Step.run, Session.run, h]
  change (StepReport.mk _ _ (changed _ _ _ ((b.contents (b.renew s.state)).toOption.getD {}).bank)
    (changed _ _ _ ((b.contents (b.renew s.state)).toOption.getD {}).ledger), _) = _
  rw [hrenew, changed_self, changed_self]
  rfl

/-- Requests that are answered without the store: the reports tell their answers, and what the store holds stays. -/
theorem Session.reports_responses {δ : Type} {held : σ → δ} (hheld : ∀ state, held (b.renew state) = held state)
    (hrenew : ∀ state, b.contents (b.renew state) = b.contents state) {server : Http.Server}
    {requests : List (Http.Request × Timestamp)} {responses : List Http.Response}
    (h : List.Forall₂ (fun r response => server.respond r.2 r.1 = pure response) requests responses) (s : Session σ) :
    Session.reports b t (requests.map fun r => .serve server r.1 r.2) s = responses.map StepReport.ofResponse ∧
      held (Session.after b t (requests.map fun r => .serve server r.1 r.2) s).state = held s.state := by
  induction h generalizing s with
  | nil => exact ⟨rfl, rfl⟩
  | cons hr _ ih =>
      have hstep := StepReport.ofStep_response b t hr s (hrenew s.state)
      obtain ⟨hreports, hkept⟩ := ih { s with state := b.renew s.state, events := [] }
      refine ⟨?_, ?_⟩
      · rw [List.map_cons, List.map_cons, Session.reports, hstep]
        exact congrArg (_ :: ·) hreports
      · rw [List.map_cons, Session.after, List.foldl_cons, hstep]
        exact hkept.trans (hheld s.state)

end Steps

/-- **Requests without an accepted key are refused in one way on every database, and leave its tables as they were.** -/
theorem unkeyed_refused (server : Http.Server) {requests : List (Http.Request × Timestamp)}
    (h : ∀ r ∈ requests, r.1.ToModule ∧ server.Unkeyed r.1) (t : Tolerance) :
    ∃ refusals : List Http.Response, (∀ refusal ∈ refusals, refusal.Refuses) ∧ ∀ s : Session Database,
      Session.reports Database.backend t (requests.map fun r => .serve server r.1 r.2) s =
        refusals.map StepReport.ofResponse ∧
      (Session.after Database.backend t (requests.map fun r => .serve server r.1 r.2) s).state.committed =
        s.state.committed := by
  obtain ⟨refusals, hanswers, hrefuse⟩ : ∃ refusals : List Http.Response,
      List.Forall₂ (fun r response => server.respond r.2 r.1 = pure response) requests refusals ∧
      ∀ refusal ∈ refusals, refusal.Refuses := by
    induction requests with
    | nil => exact ⟨[], .nil, fun refusal hmem => nomatch hmem⟩
    | cons r rest ih =>
        obtain ⟨⟨hmodule, hkey⟩, hrest⟩ := List.forall_mem_cons.mp h
        obtain ⟨response, hresponse, hrefuses⟩ := Http.Server.respond_unkeyed hkey hmodule r.2
        obtain ⟨refusals, hanswers, hall⟩ := ih hrest
        exact ⟨response :: refusals, .cons hresponse hanswers, List.forall_mem_cons.mpr ⟨hrefuses, hall⟩⟩
  have hheld : ∀ state : Database, (Database.backend.renew state).committed = state.committed := fun _ => rfl
  exact ⟨refusals, hrefuse, Session.reports_responses Database.backend t hheld (fun _ => rfl) hanswers⟩

namespace Sample

def keyedServer : Http.Server :=
  { keys := ["accepted"], tolerance := {}, origins := [], connected := true, interleaves := false }

def requestedAt : Timestamp :=
  ⟨⟨2024, 6, 1, by decide⟩, 12, 0, 0, 0, some 0⟩

/-- A run asked for without a key, and a pair dissolved with a wrong one. -/
def unkeyedRequests : List (Http.Request × Timestamp) :=
  [({ method := "POST", path := "/api/reconciliation/goals/goal/match" }, requestedAt),
    ({ method := "DELETE", path := "/api/reconciliation/reversals/a", headers := [("x-internal-api-key", "guessed")] },
      requestedAt)]

def connectedTo (rows : List BankRow) : Session Database :=
  { state := { columns := .measured, committed := { bank := rows } } }

set_option maxRecDepth 4000 in
theorem parts_match :
    Http.parts "/api/reconciliation/goals/goal/match" = ["api", "reconciliation", "goals", "goal", "match"] := by
  simp +decide [Http.parts, String.splitOn, String.splitOnAux]

set_option maxRecDepth 4000 in
theorem parts_unlink : Http.parts "/api/reconciliation/reversals/a" = ["api", "reconciliation", "reversals", "a"] := by
  simp +decide [Http.parts, String.splitOn, String.splitOnAux]

theorem unkeyed : ∀ r ∈ unkeyedRequests, r.1.ToModule ∧ keyedServer.Unkeyed r.1 := by
  refine List.forall_mem_cons.mpr ⟨⟨⟨by decide, ?_, ?_⟩, ?_⟩, List.forall_mem_singleton.mpr ⟨⟨by decide, ?_, ?_⟩, ?_⟩⟩
  · exact congrArg (List.take 2) parts_match
  · exact fun h => absurd h.1 (by decide)
  · intro key hkey
    cases hkey
  · exact congrArg (List.take 2) parts_unlink
  · exact fun h => absurd h.1 (by decide)
  · intro key hkey
    obtain rfl : "guessed" = key := Option.some.inj hkey
    decide

end Sample

/-- The two requests are refused in one way, whether there is a record or none. -/
theorem unkeyed_refused_sample :
    (∀ r ∈ Sample.unkeyedRequests, r.1.ToModule ∧ Sample.keyedServer.Unkeyed r.1) ∧
      ∃ refusals : List Http.Response, refusals.length = 2 ∧ (∀ refusal ∈ refusals, refusal.Refuses) ∧
        ∀ s ∈ [Sample.connectedTo [], Sample.connectedTo [{ id := "a", goalId := "goal" }]],
          Session.reports Database.backend {} (Sample.unkeyedRequests.map fun r => .serve Sample.keyedServer r.1 r.2) s =
            refusals.map StepReport.ofResponse := by
  obtain ⟨refusals, hrefuse, hanswers⟩ := unkeyed_refused Sample.keyedServer Sample.unkeyed {}
  refine ⟨Sample.unkeyed, refusals, ?_, hrefuse, fun s _ => (hanswers s).1⟩
  have hlength := congrArg List.length (hanswers (Sample.connectedTo [])).1
  rw [List.length_map] at hlength
  exact hlength.symm

end GoalReconciliation
