import ShellPreview.Proofs.Fetch.Attempt
import Mathlib.Data.List.Forall2
/-!
# Fetching — the first way that succeeds

A fetch finds out once where the URL leads and then asks the ways in
order. A step lemma for each outcome of an attempt gives a run lemma for
the ways that fail, and `routes_split` says that ways either all fail or
have a first one that does not.
-/

namespace ShellPreview.Fetch

/-- The request that is made for a way. -/
def Route.request (resolved : String) (route : Route) : Call :=
  .get (route.requestUrl resolved)

namespace Fetcher

/-- What is kept of a way that fails: its name and the reason. -/
def Records (f : Fetcher) (resolved : String) (route : Route) (a : Attempt) : Prop :=
  a.route = route.name ∧ f.FailsFor resolved route a.error

variable {f : Fetcher} {url resolved body : String} {attempts : List Attempt}
variable {route : Route} {front : List Route}

/-! ## One attempt -/

/-- A way that succeeds ends the pass with its document. -/
theorem tryRoutes_of_succeeds (url : String) (all : Nat) (failed : List Attempt)
    (rest : List Route) (h : f.Succeeds resolved route body) :
    (f.tryRoutes url resolved all failed (route :: rest)).value =
        .ok ⟨url, resolved, route.name, body⟩ ∧
      (f.tryRoutes url resolved all failed (route :: rest)).calls = [route.request resolved] := by
  have hj : f.judge route (f.transport.get (route.requestUrl resolved)) = .ok body :=
    judge_of_succeeds h
  simp [tryRoutes, hj, Route.request]

/-- A way that fails is recorded, and the pass goes on. -/
theorem tryRoutes_of_fails (url : String) (all : Nat) (failed : List Attempt)
    (rest : List Route) {a : Attempt} (h : f.Records resolved route a) :
    (f.tryRoutes url resolved all failed (route :: rest)).value =
        (f.tryRoutes url resolved all (failed ++ [a]) rest).value ∧
      (f.tryRoutes url resolved all failed (route :: rest)).calls =
        route.request resolved :: (f.tryRoutes url resolved all (failed ++ [a]) rest).calls := by
  obtain ⟨name, e⟩ := a
  obtain ⟨rfl, hfail⟩ := h
  have hj : f.judge route (f.transport.get (route.requestUrl resolved)) = .error e :=
    judge_of_failsFor hfail
  simp [tryRoutes, hj, Route.request]

/-! ## Any number of attempts -/

/-- **Ways that fail are recorded in order**, one request each, and the
pass goes on with the others. -/
theorem tryRoutes_append (url : String) (all : Nat) (failed : List Attempt)
    (rest : List Route) (h : List.Forall₂ (f.Records resolved) front attempts) :
    (f.tryRoutes url resolved all failed (front ++ rest)).value =
        (f.tryRoutes url resolved all (failed ++ attempts) rest).value ∧
      (f.tryRoutes url resolved all failed (front ++ rest)).calls =
        front.map (Route.request resolved) ++
          (f.tryRoutes url resolved all (failed ++ attempts) rest).calls := by
  -- every failure is added to those so far, so the induction is for any of them
  induction h generalizing failed with
  | nil => simp
  | @cons route a front attempts hra _ ih =>
    have hstep := tryRoutes_of_fails url all failed (front ++ rest) hra
    have hrun := ih (failed ++ [a])
    rw [List.append_assoc] at hrun
    constructor
    · rw [List.cons_append, hstep.1, hrun.1, List.singleton_append]
    · rw [List.cons_append, hstep.2, hrun.2, List.singleton_append, List.map_cons,
        List.cons_append]

/-- **The ways all fail, or there is a first one that succeeds.** -/
theorem routes_split (f : Fetcher) (resolved : String) (routes : List Route) :
    (∃ front route back attempts body, routes = front ++ route :: back ∧
        List.Forall₂ (f.Records resolved) front attempts ∧ f.Succeeds resolved route body) ∨
      ∃ attempts, List.Forall₂ (f.Records resolved) routes attempts := by
  induction routes with
  | nil => exact .inr ⟨[], .nil⟩
  | cons route routes ih =>
    rcases f.succeeds_or_fails resolved route with ⟨body, hs⟩ | ⟨e, he⟩
    · exact .inl ⟨[], route, routes, [], body, rfl, .nil, hs⟩
    -- the other ways matter only behind one that fails
    · have hra : f.Records resolved route ⟨route.name, e⟩ := ⟨rfl, he⟩
      rcases ih with ⟨front, r, back, attempts, body, hsplit, hfront, hs⟩ | ⟨attempts, hall⟩
      · exact .inl ⟨route :: front, r, back, _, body, by rw [hsplit]; rfl, .cons hra hfront, hs⟩
      · exact .inr ⟨_, .cons hra hall⟩

/-- A way with a record has no document. -/
theorem not_succeeds_of_records (h : List.Forall₂ (f.Records resolved) front attempts) :
    ∀ r ∈ front, ¬ ∃ body, f.Succeeds resolved r body := by
  intro r hr
  obtain ⟨i, hi, rfl⟩ := List.getElem_of_mem hr
  have hrec := h.get hi (h.length_eq ▸ hi)
  exact hrec.2.not_succeeds

/-- **A pass asks up to the first way that succeeds**, or all of them. -/
theorem tryRoutes_cases (f : Fetcher) (url resolved : String) (all : Nat) (routes : List Route) :
    (∃ front route back body, routes = front ++ route :: back ∧
        (∀ r ∈ front, ¬ ∃ text, f.Succeeds resolved r text) ∧
        f.Succeeds resolved route body ∧
        (f.tryRoutes url resolved all [] routes).value = .ok ⟨url, resolved, route.name, body⟩ ∧
        (f.tryRoutes url resolved all [] routes).calls =
          (front ++ [route]).map (Route.request resolved)) ∨
      ∃ attempts, (∀ r ∈ routes, ¬ ∃ text, f.Succeeds resolved r text) ∧
        List.Forall₂ (f.Records resolved) routes attempts ∧
        (f.tryRoutes url resolved all [] routes).value = .error ⟨url, resolved, attempts⟩ ∧
        (f.tryRoutes url resolved all [] routes).calls =
          routes.map (Route.request resolved) := by
  rcases f.routes_split resolved routes with
    ⟨front, route, back, attempts, body, rfl, hfront, hs⟩ | ⟨attempts, hall⟩
  · have hrun := tryRoutes_append url all [] (route :: back) hfront
    have hlast := tryRoutes_of_succeeds url all ([] ++ attempts) back hs
    refine .inl ⟨front, route, back, body, rfl, not_succeeds_of_records hfront, hs, ?_, ?_⟩
    · rw [hrun.1, hlast.1]
    · rw [hrun.2, hlast.2, List.map_append, List.map_singleton]
  · have hrun := tryRoutes_append url all [] [] hall
    rw [List.append_nil, List.nil_append] at hrun
    refine .inr ⟨attempts, not_succeeds_of_records hall, hall, ?_, ?_⟩
    · rw [hrun.1]
      rfl
    · rw [hrun.2]
      simp [tryRoutes]

/-- A pass makes no more requests than there are ways. -/
theorem length_calls_tryRoutes_le (f : Fetcher) (url resolved : String) (all : Nat)
    (routes : List Route) : (f.tryRoutes url resolved all [] routes).calls.length ≤
      routes.length := by
  rcases f.tryRoutes_cases url resolved all routes with
    ⟨front, route, back, body, rfl, -, -, -, hcalls⟩ | ⟨attempts, -, -, -, hcalls⟩
  · have hlen : (f.tryRoutes url resolved all [] (front ++ route :: back)).calls.length =
        front.length + 1 := by simp [hcalls]
    rw [hlen, List.length_append, List.length_cons]
    omega
  · have hlen : (f.tryRoutes url resolved all [] routes).calls.length = routes.length := by
      simp [hcalls]
    exact Nat.le_of_eq hlen

/-! ## The whole fetch -/

/-- A fetch is the pass over all ways behind the requests that find out
where the URL leads. -/
theorem fetch_of_leadsTo {probe : List Call} (h : f.LeadsTo url resolved probe) :
    (f.fetch url).value = (f.tryRoutes url resolved f.settings.routes.length []
        f.settings.routes).value ∧
      (f.fetch url).calls = probe ++ (f.tryRoutes url resolved f.settings.routes.length []
        f.settings.routes).calls := by
  obtain ⟨rfl, rfl⟩ := resolve_of_leadsTo h
  exact ⟨rfl, rfl⟩

/-- At most one request finds out where a URL leads. -/
theorem LeadsTo.length_probe_le {probe : List Call} (h : f.LeadsTo url resolved probe) :
    probe.length ≤ 1 := by
  cases h with
  | shortcut => exact Nat.zero_le 1
  | answer => exact Nat.le_refl 1
  | unanswered => exact Nat.le_refl 1

/-- A fetch makes at most one request more than there are ways. -/
theorem length_calls_fetch_le (f : Fetcher) (url : String) :
    (f.fetch url).calls.length ≤ 1 + f.settings.routes.length := by
  obtain ⟨resolved, probe, hlead⟩ := f.exists_leadsTo url
  have hprobe := hlead.length_probe_le
  have hpass := f.length_calls_tryRoutes_le url resolved f.settings.routes.length f.settings.routes
  rw [(fetch_of_leadsTo hlead).2, List.length_append]
  omega

/-- A document that a fetch gives is not blank, and longer than it must be. -/
theorem long_of_fetch {d : Document} (h : (f.fetch url).value = .ok d) :
    (∃ c ∈ d.body.toList, Text.isBlank c = false) ∧ f.settings.leastLength < d.body.length := by
  obtain ⟨resolved, probe, hlead⟩ := f.exists_leadsTo url
  rw [(fetch_of_leadsTo hlead).1] at h
  rcases f.tryRoutes_cases url resolved f.settings.routes.length f.settings.routes with
    ⟨front, route, back, body, -, -, hs, hv, -⟩ | ⟨attempts, -, -, hv, -⟩
  · obtain rfl := Except.ok.inj (hv.symm.trans h)
    exact ⟨hs.notBlank, hs.long⟩
  · cases hv.symm.trans h

/-- **A fetch resolves once, and then the first good way wins.** The
requests are those that find out where the URL leads, which are none for
a shortcut and one otherwise, and then one for each way in order, up to
the first that succeeds; its document is the result. If none succeeds,
all of them are asked and the result is their reasons, in order. -/
theorem fetch_takes_first_success (f : Fetcher) (url : String) :
    ∃ resolved probe, f.LeadsTo url resolved probe ∧
      ((∃ front route back body, f.settings.routes = front ++ route :: back ∧
          (∀ r ∈ front, ¬ ∃ text, f.Succeeds resolved r text) ∧
          f.Succeeds resolved route body ∧
          (f.fetch url).value = .ok ⟨url, resolved, route.name, body⟩ ∧
          (f.fetch url).calls = probe ++ (front ++ [route]).map (Route.request resolved)) ∨
        ∃ attempts, (∀ r ∈ f.settings.routes, ¬ ∃ text, f.Succeeds resolved r text) ∧
          List.Forall₂ (f.Records resolved) f.settings.routes attempts ∧
          (f.fetch url).value = .error ⟨url, resolved, attempts⟩ ∧
          (f.fetch url).calls = probe ++ f.settings.routes.map (Route.request resolved)) := by
  obtain ⟨resolved, probe, hlead⟩ := f.exists_leadsTo url
  obtain ⟨hvalue, hcalls⟩ := fetch_of_leadsTo hlead
  rw [hvalue, hcalls]
  refine ⟨resolved, probe, hlead, ?_⟩
  rcases f.tryRoutes_cases url resolved f.settings.routes.length f.settings.routes with
    ⟨front, route, back, body, hsplit, hfront, hs, hv, hc⟩ | ⟨attempts, hnone, hall, hv, hc⟩
  · exact .inl ⟨front, route, back, body, hsplit, hfront, hs, hv, by rw [hc]⟩
  · exact .inr ⟨attempts, hnone, hall, hv, by rw [hc]⟩

/-! ## One document for all URLs -/

/-- A network on which every URL leads to itself and gives one document. -/
def showing (body : String) : Fetcher :=
  ⟨⟨fun url => ⟨.ok url, some 0⟩, fun _ => ⟨.ok body, some 0⟩⟩, ⟨15, 100, [.direct], []⟩, 0⟩

theorem fetch_showing (hblank : ∃ c ∈ body.toList, Text.isBlank c = false)
    (hlong : 100 < body.length) (url : String) :
    ((showing body).fetch url).value = .ok ⟨url, url, "direct", body⟩ := by
  have hlead : (showing body).LeadsTo url url [.resolve url] :=
    .answer (fun _ hs => absurd hs List.not_mem_nil) ⟨0, rfl, Nat.le_refl 0⟩ rfl
  have hs : (showing body).Succeeds url .direct body :=
    ⟨⟨0, rfl, Nat.le_refl 0⟩, ⟨body, rfl, rfl⟩, hblank, hlong⟩
  rw [(fetch_of_leadsTo hlead).1]
  exact (tryRoutes_of_succeeds url _ [] [] hs).1

end Fetcher

end ShellPreview.Fetch
