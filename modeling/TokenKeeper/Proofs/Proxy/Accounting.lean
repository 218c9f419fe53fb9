import TokenKeeper.Proofs.Number.Decimal
import TokenKeeper.Proofs.Proxy.Authorization

/-!
# The accounts of a proxy

Every response of a proxy is counted once, with the code that the client sees, wherever it comes
from: from the backend, from the handler when there is none (502), or from the limit of time around
the handler (408). After any sequence of requests, and of whatever else happens between them, the
counters and the histograms of the proxy agree with the responses, under all labels and in total
(`answered_requests_are_counted`).

The invariant is `Registry.AccountsFor`. Recording a response keeps it (`AccountsFor.recordAnswer`),
so one step does (`accountsFor_step`), and a run (`accountsFor_run`). Where a response comes from is
told in layers: `handled` is what the handler does, and when, and `Reaction.limited` is the limit of
time around it. What is counted comes out of both (`response_serve_eq_limited`).
-/

namespace TokenKeeper

open Http

/-! ## All labels together -/

/-- A change that makes every value heavier by some amount makes all values together heavier by this
amount, if there is no weight to begin with. -/
theorem Series.sum_update {α : Type} {initial : α} {f : α → α} {n : Nat} (weight : α → Nat)
    (hinitial : weight initial = 0) (hf : ∀ v, weight (f v) = weight v + n)
    (labels : List String) (s : Series α) :
    ((s.update labels initial f).map fun p => weight p.2).sum =
      (s.map fun p => weight p.2).sum + n := by
  induction s with
  | nil =>
    simp only [update, List.map_cons, List.map_nil, List.sum_cons, List.sum_nil, hf, hinitial]
    omega
  | cons q rest ih =>
    rw [update]
    split
    · simp only [List.map_cons, List.sum_cons, hf]
      omega
    · simp only [List.map_cons, List.sum_cons, ih]
      omega

namespace Counters

/-- What has been counted under all labels. -/
def total (s : Counters) : Nat :=
  (s.map fun p => p.2).sum

theorem total_add (s : Counters) (labels : List String) (n : Nat) :
    (s.add labels n).total = s.total + n :=
  Series.sum_update id rfl (fun _ => rfl) labels s

end Counters

namespace Histograms

/-- The number of observations under all labels. -/
def total (s : Histograms) : Nat :=
  (s.map fun p => p.2.count).sum

theorem total_observe (s : Histograms) (labels : List String) (value : Binary64) :
    (s.observe labels value).total = s.total + 1 :=
  Series.sum_update Histogram.count rfl (fun _ => rfl) labels s

end Histograms

/-! ## Responses that are counted -/

/-- Codes that are written alike are the same. -/
theorem Http.Status.codeText_inj {a b : Status} (h : a.codeText = b.codeText) : a = b :=
  congrArg Status.mk (Decimal.ofNat_inj h)

/-- The accounts agree with the requests that were answered, each given by its method and the code
of its response. -/
structure Registry.AccountsFor (r : Registry) (answered : List (String × Status)) : Prop where
  requests : ∀ method code, r.httpRequests.count [code.codeText, method, proxyHandler] =
    answered.count (method, code)
  durations : ∀ method code, r.httpDurations.count [code.codeText, method, proxyHandler] =
    answered.count (method, code)
  requests_total : r.httpRequests.total = answered.length
  durations_total : r.httpDurations.total = answered.length

namespace Registry

/-- Nothing has been recorded, and nothing answered. -/
theorem accountsFor_nil : AccountsFor {} [] :=
  ⟨fun _ _ => rfl, fun _ _ => rfl, rfl, rfl⟩

/-- Recording a response counts it once, under the code and the method of its own. -/
theorem AccountsFor.recordAnswer {r : Registry} {answered : List (String × Status)}
    (h : r.AccountsFor answered) (method : String) (code : Status) (elapsed : Binary64) :
    (r.recordAnswer method code.codeText elapsed).AccountsFor (answered ++ [(method, code)]) := by
  have hlabels (m : String) (c : Status) :
      [code.codeText, method, proxyHandler] = [c.codeText, m, proxyHandler] ↔
        (method, code) = (m, c) := by
    constructor
    · intro h
      obtain ⟨hcode, hrest⟩ := List.cons.inj h
      obtain ⟨hmethod, -⟩ := List.cons.inj hrest
      exact Prod.ext hmethod (Status.codeText_inj hcode)
    · rintro ⟨⟩
      rfl
  have hone (m : String) (c : Status) : (answered ++ [(method, code)]).count (m, c) =
      answered.count (m, c) + if (method, code) = (m, c) then 1 else 0 := by
    rw [List.count_append, List.count_singleton]
    simp only [beq_iff_eq]
  refine ⟨fun m c => ?_, fun m c => ?_, ?_, ?_⟩
  · rw [hone, ← h.requests, Registry.recordAnswer, Counters.count_add]
    simp only [hlabels]
  · rw [hone, ← h.durations, Registry.recordAnswer, Histograms.count_observe]
    simp only [hlabels]
  · rw [List.length_append, ← h.requests_total]
    exact Counters.total_add _ _ 1
  · rw [List.length_append, ← h.durations_total]
    exact Histograms.total_observe _ _ elapsed

end Registry

/-! ## Where responses come from -/

/-- What comes of a request, and when. -/
inductive Reaction where
  | atOnce (r : Response)
  /-- After a limit of time has run out. -/
  | later (t : Span) (r : Response)
  | never

namespace Reaction

/-- The response. -/
def response? : Reaction → Option Response
  | atOnce r => some r
  | later _ r => some r
  | never => none

/-- A limit of time around what comes of a request: what has not come before it runs out never
does. -/
def limited (x : Reaction) : Option Span → Reaction
  | none => x
  | some limit =>
    match x with
    | atOnce r => atOnce r
    | later t r => if t < limit then later t r else later limit (Proxy.ownResponse .requestTimeout)
    | never => later limit (Proxy.ownResponse .requestTimeout)

/-- A limit of time changes nothing, and then something comes or there is no limit, or it cuts off
what it is around. -/
theorem limited_cases (x : Reaction) (limit : Option Span) :
    x.limited limit = x ∧ (x = never → limit = none) ∨
      ∃ t, limit = some t ∧ x.limited limit = later t (Proxy.ownResponse .requestTimeout) := by
  rcases limit with - | t
  · exact .inl ⟨rfl, fun _ => rfl⟩
  · cases x with
    | atOnce r => exact .inl ⟨rfl, nofun⟩
    | later u r =>
      by_cases hcomes : u < t
      · exact .inl ⟨if_pos hcomes, nofun⟩
      · exact .inr ⟨t, rfl, if_neg hcomes⟩
    | never => exact .inr ⟨t, rfl, rfl⟩

end Reaction

namespace Proxy

variable (p : Proxy)

/-- What the handler does with a request, where reading the body may have a limit of time. -/
def handled (token : Option Token) (r : Incoming) (n : Network) : Reaction :=
  match p.outgoing r token with
  | .error _ => .atOnce (ownResponse .badGateway)
  | .ok request =>
    match (n.send request).1 with
    | some (.ok response) => .atOnce (returned response)
    | some (.error _) => .atOnce (ownResponse .badGateway)
    | none =>
      match p.readLimit request with
      | some read => .later read (ownResponse .badGateway)
      | none => .never

/-- **The layers.** What a request is answered with comes out of the limit of time around the
handler. -/
theorem fst_answer (token : Option Token) (r : Incoming) (n : Network) :
    (p.answer token r n).1 = ((p.handled token r n).limited p.writeTimeout).response? := by
  simp only [answer, handled]
  rcases p.outgoing r token with fault | request
  · cases p.writeTimeout <;> rfl
  · simp only
    rcases n.send request with ⟨(- | (fault | response)), n'⟩
    · simp only [timedOut]
      rcases p.readLimit request with - | read <;> rcases p.writeTimeout with - | write
      · rfl
      · rfl
      · rfl
      · simp only [Reaction.limited]
        split <;> rfl
    · cases p.writeTimeout <;> rfl
    · cases p.writeTimeout <;> rfl

/-- What comes of a request in the handler is a response of the backend, a refusal, or nothing. -/
theorem handled_cases (token : Option Token) (r : Incoming) (n : Network) :
    (∃ request response, p.outgoing r token = .ok request ∧
      (n.send request).1 = some (.ok response) ∧
      p.handled token r n = .atOnce (returned response)) ∨
    (p.handled token r n).response? = some (ownResponse .badGateway) ∨
    p.handled token r n = .never := by
  rw [handled]
  rcases hout : p.outgoing r token with fault | request
  · exact .inr (.inl rfl)
  · simp only
    rcases hsend : (n.send request).1 with - | (fault | response)
    · simp only
      rcases p.readLimit request with - | read
      · exact .inr (.inr rfl)
      · exact .inr (.inl rfl)
    · exact .inr (.inl rfl)
    · exact .inl ⟨request, response, rfl, hsend, rfl⟩

theorem response_serve_eq_limited (s : ProxyState) (r : Incoming) (n : Network) :
    (p.serve s r n).1.response =
      ((p.handled (liveToken s) r n).limited p.writeTimeout).response? := by
  rw [← fst_answer, serve]

/-- **The three layers.** A request is answered with what the backend responds, with 502 by the
handler, or with 408 by a limit of time. Otherwise there is no limit and never a response. -/
theorem response_serve_cases (s : ProxyState) (r : Incoming) (n : Network) :
    (∃ request response, p.outgoing r (liveToken s) = .ok request ∧
      (n.send request).1 = some (.ok response) ∧
      (p.serve s r n).1.response = some (returned response)) ∨
    (p.serve s r n).1.response = some (ownResponse .badGateway) ∨
    (p.writeTimeout.isSome ∧ (p.serve s r n).1.response = some (ownResponse .requestTimeout)) ∨
    (p.writeTimeout = none ∧ (p.serve s r n).1.response = none) := by
  rw [response_serve_eq_limited]
  rcases (p.handled (liveToken s) r n).limited_cases p.writeTimeout with
    ⟨hsame, hlimit⟩ | ⟨t, hlimit, hcut⟩
  · rw [hsame]
    rcases p.handled_cases (liveToken s) r n with
      ⟨request, response, hout, hsend, h⟩ | hrefused | hnever
    · exact .inl ⟨request, response, hout, hsend, by rw [h, Reaction.response?]⟩
    · exact .inr (.inl hrefused)
    · exact .inr (.inr (.inr ⟨hlimit hnever, by rw [hnever, Reaction.response?]⟩))
  · rw [hcut, hlimit]
    exact .inr (.inr (.inl ⟨rfl, rfl⟩))

/-! ## The accounts -/

/-- The method of a request that was answered, with the code that the client sees. -/
def answeredBy : ProxyAction → Option ProxyAnswer → Option (String × Status)
  | .request r _, answer =>
    (answer.bind (·.response)).map fun response => (r.method, response.status)
  | _, _ => none

/-- The requests that were answered among some actions. -/
def answered (as : List ProxyAction) (answers : List (Option ProxyAnswer)) :
    List (String × Status) :=
  (List.zipWith answeredBy as answers).filterMap id

theorem answered_cons (a : ProxyAction) (as : List ProxyAction) (answer : Option ProxyAnswer)
    (answers : List (Option ProxyAnswer)) :
    answered (a :: as) (answer :: answers) =
      (answeredBy a answer).toList ++ answered as answers := by
  rw [answered, List.zipWith_cons_cons, List.filterMap_cons, answered]
  rcases answeredBy a answer with - | pair <;> rfl

variable {s : ProxyState} {done : List (String × Status)}

/-- **One step keeps the accounts.** It records a response if the client sees one, and nothing
otherwise. -/
theorem accountsFor_step (h : s.metrics.AccountsFor done) (a : ProxyAction) :
    (p.step s a).2.metrics.AccountsFor (done ++ (answeredBy a (p.step s a).1).toList) := by
  -- what is no request is answered by nobody
  have hnone : s.metrics.AccountsFor (done ++ []) := by
    rwa [List.append_nil]
  cases a with
  | clock now => exact hnone
  | publish t =>
    rw [step]
    split <;> exact hnone
  | dropWriter => exact hnone
  | request r n =>
    rw [step_request, serve]
    rcases p.answer (liveToken s) r n with ⟨- | response, n'⟩
    · exact hnone
    · exact h.recordAnswer r.method response.status .zero

/-- So does a run. -/
theorem accountsFor_run (h : s.metrics.AccountsFor done) (as : List ProxyAction) :
    (p.run s as).2.metrics.AccountsFor (done ++ answered as (p.run s as).1) := by
  induction as generalizing s done with
  | nil => rwa [run, answered, List.zipWith_nil_left, List.filterMap_nil, List.append_nil]
  | cons a as ih =>
    rw [run_cons, answered_cons, ← List.append_assoc]
    exact ih (p.accountsFor_step h a)

/-- **The accounts of a proxy.** Take a proxy with any limits of time. Requests are answered,
whatever the network is each time, and between them tokens are published, the clock is set and the
writer goes away. Then for each code and method the counter of requests is the number of responses
with the code to requests with the method, and the histogram has as many samples. Under all labels
together there are as many as there are requests that were answered. What a request is answered with
comes out of the limit of time around the handler. -/
theorem answered_requests_are_counted (start : Instant) (as : List ProxyAction) :
    let answers := (p.run { now := start } as).1
    let metrics := (p.run { now := start } as).2.metrics
    (∀ method code,
      metrics.httpRequests.count [Status.codeText code, method, Registry.proxyHandler] =
        (answered as answers).count (method, code) ∧
      metrics.httpDurations.count [Status.codeText code, method, Registry.proxyHandler] =
        (answered as answers).count (method, code)) ∧
    metrics.httpRequests.total = (answered as answers).length ∧
    metrics.httpDurations.total = (answered as answers).length ∧
    ∀ before r n after, as = before ++ .request r n :: after → ∃ answer,
      answers[before.length]? = some (some answer) ∧
      answer.response = ((p.handled (liveToken (p.run { now := start } before).2) r n).limited
        p.writeTimeout).response? := by
  intro answers metrics
  have hstart : ({ now := start } : ProxyState).metrics.AccountsFor [] := Registry.accountsFor_nil
  have haccounts : metrics.AccountsFor (answered as answers) := p.accountsFor_run hstart as
  refine ⟨fun method code => ⟨haccounts.requests method code, haccounts.durations method code⟩,
    haccounts.requests_total, haccounts.durations_total, ?_⟩
  rintro before r n after rfl
  exact ⟨_, p.getElem?_run _ before after r n, p.response_serve_eq_limited _ r n⟩

/-- A backend that answers, one that cannot be reached, and one that sends nothing for longer than a
second, which is the limit. -/
theorem answered_requests_are_counted_in_all_layers :
    let p : Proxy :=
      { backend := ⟨"http", "up.example", ⟨"/base", none⟩⟩, writeTimeout := some (.seconds 1) }
    let r : Incoming := { method := "PATCH", target := { path := "/query" } }
    let as : List ProxyAction :=
      [ .request r { reachable := true, replies := [.answer .ok [] [] .announced] },
        .request r { reachable := false },
        .request r { reachable := true, replies := [.hang] } ]
    let requests := (p.run { now := ⟨0⟩ } as).2.metrics.httpRequests
    (∀ code ∈ [Status.ok, .badGateway, .requestTimeout],
      requests.count [code.codeText, "PATCH", Registry.proxyHandler] = 1) ∧
    requests.total = 3 ∧
    ∃ answer, (p.run { now := ⟨0⟩ } as).1[2]? = some (some answer) ∧
      answer.response = some (ownResponse .requestTimeout) := by
  intro p r as requests
  obtain ⟨hcounts, htotal, -, hlayers⟩ := answered_requests_are_counted p ⟨0⟩ as
  have hanswered : answered as (p.run { now := ⟨0⟩ } as).1 =
      [("PATCH", .ok), ("PATCH", .badGateway), ("PATCH", .requestTimeout)] := by
    decide +kernel
  rw [hanswered] at hcounts htotal
  obtain ⟨answer, hanswer, hresponse⟩ := hlayers (as.take 2) r _ [] rfl
  refine ⟨fun code hcode => ?_, htotal, answer, hanswer, ?_⟩
  · have hone : ∀ c ∈ [Status.ok, .badGateway, .requestTimeout],
        [("PATCH", Status.ok), ("PATCH", .badGateway), ("PATCH", .requestTimeout)].count
          ("PATCH", c) = 1 := by
      decide
    exact (hcounts "PATCH" code).1.trans (hone code hcode)
  · rw [hresponse]
    decide +kernel

end Proxy

end TokenKeeper
