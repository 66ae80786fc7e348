import ProductSegments.Proofs.Service.Evaluation
import ProductSegments.Proofs.Service.Sent
import ProductSegments.Proofs.Service.Transparency

/-!
# The accounts of the service

What the service counts can be read off what has happened: so many refreshes have ended and so many
have failed, so many segments have been worked out, and so many responses have gone out.  Retries
are part of one refresh, and a request that is turned away, or finds no products, has no segment.

## Main definitions

* `Service.isForSegment` — the request is one for a segment.
* `Service.Move.evaluated?` — the request for a segment of some products that is answered with a
  move.
* `Service.Accounts` — the counters agree with what has happened.

## Main results

* `Service.Run.catalogSize?_eq` — the number of products shown is that of the snapshot.
* `Service.Run.ending?_eq_none` — without a cache no refresh ends.
* `Service.Run.accounts` — the counters agree with what has happened in every run.
-/

namespace ProductSegments

open Catalog (State Visit Cycle Worker Outcome Ending)

namespace Service

variable {setting : Setting} {w next : World} {action : Action} {moves : List Move}

/-! ### Counters by name -/

/-- The counter has the given name. -/
def counts (name : String) (s : Series) : Bool := s.name = name

theorem name_of_counts (name : String) : ∀ s, counts name s = true → s.name = name :=
  fun _ => of_decide_eq_true

/-- The counter is of responses with a status. -/
def countsStatus (status : Nat) (s : Series) : Bool :=
  counts "http_requests_total" s && s.labels.lookup "status" = some (toString status)

/-- Different numbers have different texts. -/
theorem toString_inj {a b : Nat} : toString a = toString b ↔ a = b := by
  refine ⟨fun h => ?_, congrArg _⟩
  have digits : Nat.toDigits 10 a = Nat.toDigits 10 b := String.ofList_injective h
  rw [← Nat.ofDigitChars_ten_toDigits (n := a), digits, Nat.ofDigitChars_ten_toDigits]

/-! ### Counting moves -/

section Counting

variable {p : Series → Bool} {name : String}

/-- If each move records one entry of a kind or none, there are as many entries as moves that do. -/
theorem countP_recorded {q : Metrics.Entry → Bool} {moved : Move → Bool}
    (one : ∀ m ∈ moves, (m.before.entries setting m.action).countP q = if moved m then 1 else 0) :
    (recorded setting moves).countP q = moves.countP moved := by
  induction moves with
  | nil => rfl
  | cons m moves ih =>
    rw [recorded, List.flatMap_cons, List.countP_append, one m List.mem_cons_self, List.countP_cons,
      Nat.add_comm]
    congr 1
    exact ih fun m' hm => one m' (List.mem_cons_of_mem _ hm)

/-- An entry that an action may record. -/
theorem countP_toList {α : Type} {q : Metrics.Entry → Bool} (entry : α → Metrics.Entry)
    (a? : Option α) : (a?.toList.map entry).countP q = if a?.any (q <| entry ·) then 1 else 0 := by
  cases a? with
  | none => rfl
  | some a => exact List.countP_singleton

theorem Draft.countP_entries {q : Metrics.Entry → Bool} (d : Draft) :
    (d.entries setting).countP q =
      if setting.isLayered && q (d.entry setting) then 1 else 0 := by
  unfold entries
  cases setting.isLayered with
  | true => exact List.countP_singleton
  | false => rfl

/-- An action records the end of a refresh, a segment and a response, or some of them. -/
theorem World.countP_entries {q : Metrics.Entry → Bool} (w : World) (action : Action) :
    (w.entries setting action).countP q =
      (if (w.ending? setting action).any (q ·.entry) then 1 else 0) +
      (if ((w.return? setting action).bind fun r => r.purpose.evaluated? r.outcome).any
        (q <| Function.uncurry setting.segmentEntry ·) then 1 else 0) +
      if (w.draft? setting action).any fun d => setting.isLayered && q (d.entry setting)
        then 1 else 0 := by
  rw [entries, List.countP_append, List.countP_append, countP_toList, countP_toList]
  congr 1
  cases w.draft? setting action with
  | none => rfl
  | some d => exact d.countP_entries

theorem any_eq_false {α : Type} {f : α → Bool} (h : ∀ a, f a = false) (a? : Option α) :
    a?.any f = false := by
  cases a? with
  | none => rfl
  | some a => exact h a

/-- A counter with another name is not meant. -/
theorem eq_false_of_name (named : ∀ s, p s = true → s.name = name) {s : Series}
    (other : s.name ≠ name) : p s = false :=
  Bool.eq_false_iff.mpr fun h => other (named s h)

/-- Counters of refreshes count the ends of refreshes. -/
theorem countP_refreshed (named : ∀ s, p s = true → s.name = "catalog_refreshes_total") :
    (recorded setting moves).countP (p ·.counter) =
      moves.countP fun m => (m.ending? setting).any (p ·.entry.counter) := by
  refine countP_recorded fun m _ => ?_
  have noSegment : ∀ a, p (Function.uncurry setting.segmentEntry a).counter = false :=
    fun _ => eq_false_of_name named (by decide : "segment_evaluations_total" ≠ _)
  have noResponse : ∀ d : Draft, (setting.isLayered && p (d.entry setting).counter) = false :=
    fun d => Bool.and_eq_false_iff.mpr
      (.inr (eq_false_of_name named (by decide : "http_requests_total" ≠ _)))
  rw [World.countP_entries, any_eq_false noSegment, any_eq_false noResponse]
  rfl

/-- Counters of segments count the visits that end with a segment of some products. -/
theorem countP_evaluated (named : ∀ s, p s = true → s.name = "segment_evaluations_total") :
    (recorded setting moves).countP (p ·.counter) =
      moves.countP fun m => ((m.return? setting).bind fun r => r.purpose.evaluated? r.outcome).any
        (p <| Metrics.Entry.counter <| Function.uncurry setting.segmentEntry ·) := by
  refine countP_recorded fun m _ => ?_
  have noRefresh : ∀ e : Ending, p e.entry.counter = false :=
    fun _ => eq_false_of_name named (by decide : "catalog_refreshes_total" ≠ _)
  have noResponse : ∀ d : Draft, (setting.isLayered && p (d.entry setting).counter) = false :=
    fun d => Bool.and_eq_false_iff.mpr
      (.inr (eq_false_of_name named (by decide : "http_requests_total" ≠ _)))
  rw [World.countP_entries, any_eq_false noRefresh, any_eq_false noResponse,
    if_neg Bool.false_ne_true, Nat.zero_add]
  rfl

/-- Counters of requests count the responses, where these are counted. -/
theorem countP_served (named : ∀ s, p s = true → s.name = "http_requests_total") :
    (recorded setting moves).countP (p ·.counter) =
      moves.countP fun m => (m.before.draft? setting m.action).any fun d =>
        setting.isLayered && p (d.entry setting).counter := by
  refine countP_recorded fun m _ => ?_
  have noRefresh : ∀ e : Ending, p e.entry.counter = false :=
    fun _ => eq_false_of_name named (by decide : "catalog_refreshes_total" ≠ _)
  have noSegment : ∀ a, p (Function.uncurry setting.segmentEntry a).counter = false :=
    fun _ => eq_false_of_name named (by decide : "segment_evaluations_total" ≠ _)
  rw [World.countP_entries, any_eq_false noRefresh, any_eq_false noSegment,
    if_neg Bool.false_ne_true, Nat.zero_add]

end Counting

/-! ### Refreshes -/

namespace Run

/-- Each of the two counters of refreshes has counted those that ended so. -/
theorem value_refreshCounter (h : Run setting .initial moves w) (succeeded : Bool) :
    w.catalog.metrics.value (Metrics.refreshCounter succeeded) =
      moves.countP fun m => (m.ending? setting).any (·.products?.isSome = succeeded) := by
  have named : ∀ s, decide (s = Metrics.refreshCounter succeeded) = true →
      s.name = "catalog_refreshes_total" := by
    intro s same
    rw [of_decide_eq_true same]
    rfl
  have own : ∀ e : Ending, (e.entry.counter = Metrics.refreshCounter succeeded) ↔
      e.products?.isSome = succeeded := by
    intro e
    simp only [Ending.entry, Metrics.Entry.counter, Metrics.refreshCounter, Option.isSome_map]
    cases e.products?.isSome <;> cases succeeded <;> decide
  rw [h.metrics_eq, Metrics.value_foldl, countP_refreshed named]
  simp only [own]
  exact Nat.zero_add _

/-- Together they have counted all that ended. -/
theorem total_refreshes (h : Run setting .initial moves w) :
    w.catalog.metrics.total (counts "catalog_refreshes_total") =
      moves.countP fun m => (m.ending? setting).isSome := by
  rw [h.metrics_eq, Metrics.total_foldl, countP_refreshed (name_of_counts _)]
  refine (Nat.zero_add _).trans (List.countP_congr fun m _ => ?_)
  cases m.ending? setting with
  | none => exact Iff.rfl
  | some e => exact iff_of_true rfl rfl

end Run

/-! ### The number of products -/

/-- The end of a refresh tells its number of products, and no other entry tells one. -/
theorem World.catalogSize?_of_act? (act : w.act? setting action = some next) :
    next.catalog.metrics.catalogSize? =
      (((w.ending? setting action).bind Ending.products?).map List.length <|>
        w.catalog.metrics.catalogSize?) := by
  have silent : ∀ e ∈ ((w.return? setting action).bind fun r =>
        r.purpose.evaluated? r.outcome).toList.map (Function.uncurry setting.segmentEntry) ++
      (w.draft? setting action).elim [] (·.entries setting), e.size? = none := by
    intro e he
    rcases List.mem_append.mp he with segment | response
    · obtain ⟨pair, -, rfl⟩ := List.mem_map.mp segment
      rfl
    · cases drafted : w.draft? setting action with
      | none =>
        rw [drafted] at response
        cases response
      | some d =>
        rw [drafted] at response
        obtain ⟨-, rfl⟩ := Draft.mem_entries.mp response
        rfl
  rw [World.metrics_of_act? act, World.entries, List.append_assoc, List.foldl_append,
    Metrics.catalogSize?_foldl silent]
  cases w.ending? setting action with
  | none => rfl
  | some e => exact Metrics.catalogSize?_enter _ e.entry

namespace Run

/-- **The number of products shown is that of the snapshot**, and none is shown while there is no
snapshot. -/
theorem catalogSize?_eq (h : Run setting .initial moves w) :
    w.catalog.metrics.catalogSize? = w.catalog.snapshot.map List.length := by
  generalize begun : World.initial = start at h
  induction h with
  | refl =>
    rw [← begun]
    rfl
  | @snoc moves v next action run act ih =>
    rw [World.catalogSize?_of_act? act, (World.effect_of_act? act).snapshot, ih]
    cases (v.ending? setting action).bind Ending.products? <;> rfl

end Run

/-! ### Without a cache -/

/-- Without a cache nobody waits for a refresh. -/
theorem Client.Fits.cycle?_eq_none {c : Client} (h : c.Fits setting)
    (direct : setting.isCached = false) : c.cycle? = none := by
  have cached : setting.isCached ≠ true := by
    rw [direct]
    exact Bool.false_ne_true
  match c with
  | .visiting _ (.queued _) => rfl
  | .visiting _ (.asking _) => rfl
  | .answered _ => rfl
  | .visiting _ (.loading _) => exact absurd h.1 cached
  | .visiting _ (.refreshing _) => exact absurd h.1 cached

namespace Run

/-- Where no worker is started, there is none. -/
theorem workers_eq_nil (h : Run setting .initial moves w)
    (noWorker : ∀ m ∈ moves, ∀ interval, m.action ≠ .start interval) : w.workers = [] := by
  generalize begun : World.initial = start at h
  induction h with
  | refl =>
    rw [← begun]
    rfl
  | @snoc moves v next action run act ih =>
    have earlier := ih fun m hm => noWorker m (List.mem_append_left _ hm)
    cases World.effect_of_act? act with
    | consult intent opening begun metrics ids log => exact earlier
    | dispatch intent reply metrics ids => exact earlier
    | visit client effect step metrics log => exact earlier
    | work worker? effect =>
      rw [earlier] at worker?
      cases worker?
    | start interval =>
      exact absurd rfl (noWorker _ (List.mem_append_right _ List.mem_cons_self) interval)
    | signal index value => simp only [earlier, List.modify_nil]
    | close index => simp only [earlier, List.modify_nil]
    | wait duration => exact earlier

/-- **Without a cache no refresh ends**, as long as no worker is started. -/
theorem ending?_eq_none (h : Run setting .initial moves w) (direct : setting.isCached = false)
    (noWorker : ∀ m ∈ moves, ∀ interval, m.action ≠ .start interval) :
    ∀ m ∈ moves, m.ending? setting = none := by
  intro m hm
  obtain ⟨earlier, later, rfl, run, act, -⟩ := h.of_mem hm
  have nobody := run.workers_eq_nil fun m' hm' => noWorker m' (List.mem_append_left _ hm')
  have noCycle : m.before.cycle? m.action = none := by
    cases m.action with
    | client index =>
      rw [World.cycle?]
      cases waits : m.before.clients[index]? with
      | none => rfl
      | some c => exact (run.fits c (List.mem_of_getElem? waits)).cycle?_eq_none direct
    | worker index attention =>
      rw [World.cycle?, nobody]
      rfl
    | enter arrival => rfl
    | start interval => rfl
    | signal index value => rfl
    | close index => rfl
    | wait duration => rfl
  rw [Move.ending?, World.ending?, noCycle]
  rfl

end Run

/-! ### Segments -/

/-- The request is one for a segment. -/
def isForSegment (routes : Routes) (r : Web.Request) : Bool :=
  (route? routes r).map Prod.snd = some .evaluate && r.method = "POST"

/-- The request for a segment that is answered with a move, if the segment is one of some products:
its status is 200, and there are products in the catalog that was consulted for it. -/
def Move.evaluated? (setting : Setting) (m : Move) : Option Web.Request :=
  match m.served?, m.return? setting with
  | some (request, response), some ⟨_, _, .ok (_ :: _)⟩ =>
    if response.status = 200 ∧ isForSegment setting.routes request then some request else none
  | _, _ => none

/-- The order of a purpose is what was planned for its request. -/
def Purpose.Planned (setting : Setting) : Purpose → Prop
  | .fetch | .refresh => True
  | .serve ⟨request, id, order⟩ => setting.plan id request = .inr order

theorem World.Arrival.planned {arrival : World.Arrival} {purpose : Purpose}
    (h : arrival.purpose? setting w = some purpose) : purpose.Planned setting := by
  match arrival with
  | .fetch =>
    obtain rfl := Option.some.inj h
    trivial
  | .refresh =>
    obtain rfl := Option.some.inj h
    trivial
  | .request r =>
    simp only [purpose?] at h
    split at h
    · cases h
    · next order planned =>
      obtain rfl := Option.some.inj h
      exact planned

/-- An order for a segment has the rules of a request for one, and no other order is planned for
such a request. -/
theorem order_of_plan {id : List Char} {r : Web.Request} {order : Order}
    (h : setting.plan id r = .inr order) :
    (∃ rules, order = .evaluate rules ∧ isForSegment setting.routes r = true ∧
      rules? r = .ok rules) ∨
      (∀ rules, order ≠ .evaluate rules) ∧ isForSegment setting.routes r = false := by
  unfold Setting.plan guardedPlan at h
  split at h
  · cases h
  · unfold plan at h
    split at h
    · cases h
    · next path endpoint found =>
      split at h
      · cases h
      · next welcome =>
        have other : endpoint ≠ .evaluate → isForSegment setting.routes r = false := by
          intro ne
          simp [isForSegment, found, ne]
        cases endpoint with
        | evaluate =>
          have post : r.method = "POST" := by
            simpa [Endpoint.methods, Endpoint.isPost] using welcome
          dsimp only at h
          split at h
          · next rules read =>
            obtain rfl := Sum.inr.inj h
            refine .inl ⟨rules, rfl, ?_, read⟩
            simp [isForSegment, found, post]
          · cases h
        | products =>
          obtain rfl := Sum.inr.inj h
          exact .inr ⟨fun _ => Order.noConfusion, other Endpoint.noConfusion⟩
        | refresh =>
          obtain rfl := Sum.inr.inj h
          exact .inr ⟨fun _ => Order.noConfusion, other Endpoint.noConfusion⟩
        | health => cases h
        | identity => cases h

/-- When a visit ends, the response to it goes out, if there is to be one. -/
theorem Move.served?_of_return? {m : Move} {r : Return}
    (act : m.before.act? setting m.action = some m.after) (hr : m.return? setting = some r) :
    m.served? = (r.purpose.draft? setting r.outcome).map fun d => (d.request, d.sent setting) := by
  obtain ⟨before, action, after⟩ := m
  have returns : before.return? setting action = some r := hr
  have notAtOnce : before.dispatch? setting action = none := by
    match action with
    | .enter (.request request) =>
      cases planned : setting.plan (request.id (setting.freshId before.ids)) request with
      | inl response =>
        simp only [World.return?, World.Arrival.purpose?, planned] at returns
        cases returns
      | inr order => exact World.dispatch?_of_order planned
    | .enter .fetch => rfl
    | .enter .refresh => rfl
    | .client index => rfl
    | .worker index attention => rfl
    | .start interval => rfl
    | .signal index value => rfl
    | .close index => rfl
    | .wait duration => rfl
  rw [served?_of_act? act, World.draft?, notAtOnce, returns]
  rfl

/-- In a run, the segments that are worked out are those of requests that are answered so. -/
theorem Run.evaluated?_eq (h : Run setting .initial moves w) {m : Move} (hm : m ∈ moves) :
    (m.evaluated? setting).map rules? =
      ((m.return? setting).bind fun r => r.purpose.evaluated? r.outcome).map (.ok ·.1) := by
  obtain ⟨-, -, -, -, act, -⟩ := h.of_mem hm
  rw [Move.evaluated?]
  cases hr : m.return? setting with
  | none => cases m.served? <;> rfl
  | some r =>
    obtain ⟨client, purpose, outcome⟩ := r
    have planned : purpose.Planned setting :=
      h.forall_returns (fun _ _ _ _ _ => World.Arrival.planned) m hm _ hr
    rw [Move.served?_of_return? act hr]
    match purpose, outcome with
    | .fetch, outcome => rfl
    | .refresh, outcome => rfl
    | .serve ⟨request, id, order⟩, .error failure => cases order <;> rfl
    | .serve ⟨request, id, order⟩, .ok [] => cases order <;> rfl
    | .serve ⟨request, id, order⟩, .ok (p :: ps) =>
      have status : (Draft.sent setting
          ⟨request, id, order.response setting.isTraced (.ok (p :: ps))⟩).status = 200 := by
        rw [Draft.status_sent]
        cases order <;> rfl
      simp only [Purpose.draft?, Option.map_some, status, true_and]
      rcases order_of_plan planned with ⟨rules, rfl, segment, read⟩ | ⟨other, noSegment⟩
      · rw [if_pos segment, Option.map_some, read]
        rfl
      · rw [noSegment, if_neg Bool.false_ne_true]
        cases order with
        | evaluate rules => exact absurd rfl (other rules)
        | list => rfl
        | refresh => rfl

/-- The request asks for a segment of as many rules as a label says. -/
def isInBucket (bucket : String) (r : Web.Request) : Bool :=
  (rules? r).toOption.any (Metrics.ruleBucket ·.length = bucket)

namespace Run

/-- Each counter of segments has counted those of its own number of rules. -/
theorem value_segmentCounter (h : Run setting .initial moves w) (bucket : String) :
    w.catalog.metrics.value (Metrics.segmentCounter bucket) =
      moves.countP fun m => (m.evaluated? setting).any (isInBucket bucket) := by
  have own : ∀ rules products,
      (setting.segmentEntry rules products).counter = Metrics.segmentCounter bucket ↔
        Metrics.ruleBucket rules.length = bucket := by
    intro rules products
    simp [Setting.segmentEntry, Metrics.Entry.counter, Metrics.segmentCounter]
  have named : ∀ s, decide (s = Metrics.segmentCounter bucket) = true →
      s.name = "segment_evaluations_total" := by
    intro s same
    rw [of_decide_eq_true same]
    rfl
  rw [h.metrics_eq, Metrics.value_foldl, countP_evaluated named]
  refine (Nat.zero_add _).trans (List.countP_congr fun m hm => ?_)
  have bucketed : (m.evaluated? setting).any (isInBucket bucket) =
      ((m.evaluated? setting).map rules?).any
        (·.toOption.any (Metrics.ruleBucket ·.length = bucket)) := by
    rw [Option.any_map]
    rfl
  rw [bucketed, h.evaluated?_eq hm]
  cases (m.return? setting).bind fun r => r.purpose.evaluated? r.outcome with
  | none => exact Iff.rfl
  | some segment => exact decide_eq_true_iff.trans ((own _ _).trans decide_eq_true_iff.symm)

/-- Together they have counted all of them. -/
theorem total_segments (h : Run setting .initial moves w) :
    w.catalog.metrics.total (counts "segment_evaluations_total") =
      moves.countP fun m => (m.evaluated? setting).isSome := by
  rw [h.metrics_eq, Metrics.total_foldl, countP_evaluated (name_of_counts _)]
  refine (Nat.zero_add _).trans (List.countP_congr fun m hm => ?_)
  have worked : (m.evaluated? setting).isSome =
      ((m.return? setting).bind fun r => r.purpose.evaluated? r.outcome).isSome := by
    rw [← Option.isSome_map, h.evaluated?_eq hm, Option.isSome_map]
  rw [worked]
  cases (m.return? setting).bind fun r => r.purpose.evaluated? r.outcome with
  | none => exact Iff.rfl
  | some segment => exact iff_of_true rfl rfl

/-! ### Responses -/

/-- Every response that goes out in a run was drafted. -/
theorem served?_eq (h : Run setting .initial moves w) {m : Move} (hm : m ∈ moves) :
    m.served? = (m.before.draft? setting m.action).map fun d => (d.request, d.sent setting) := by
  obtain ⟨-, -, -, -, act, -⟩ := h.of_mem hm
  exact Move.served?_of_act? act

/-- The counters of a status have counted the responses with it. -/
theorem total_status (h : Run setting .initial moves w) (layered : setting.isLayered = true)
    (status : Nat) : w.catalog.metrics.total (countsStatus status) =
      moves.countP fun m => m.served?.any (·.2.status = status) := by
  have own : ∀ d : Draft, countsStatus status (d.entry setting).counter =
      decide (d.response.status = status) := by
    intro d
    have label : (d.entry setting).counter.labels.lookup "status" =
        some (toString d.response.status) := rfl
    have name : counts "http_requests_total" (d.entry setting).counter = true := rfl
    rw [countsStatus, name, label, Bool.true_and]
    exact decide_eq_decide.mpr (Option.some_inj.trans toString_inj)
  have named : ∀ s, countsStatus status s = true → s.name = "http_requests_total" :=
    fun s h => name_of_counts _ s (Bool.and_eq_true_iff.mp h).1
  rw [h.metrics_eq, Metrics.total_foldl, countP_served named]
  refine (Nat.zero_add _).trans (List.countP_congr fun m hm => ?_)
  rw [h.served?_eq hm, layered]
  cases m.before.draft? setting m.action with
  | none => exact Iff.rfl
  | some d =>
    rw [Option.any_some, Option.map_some, Option.any_some, own, Draft.status_sent]
    rfl

/-- Together they have counted all responses. -/
theorem total_responses (h : Run setting .initial moves w) (layered : setting.isLayered = true) :
    w.catalog.metrics.total (counts "http_requests_total") =
      moves.countP fun m => m.served?.isSome := by
  rw [h.metrics_eq, Metrics.total_foldl, countP_served (name_of_counts _)]
  refine (Nat.zero_add _).trans (List.countP_congr fun m hm => ?_)
  rw [h.served?_eq hm, layered]
  cases m.before.draft? setting m.action with
  | none => exact Iff.rfl
  | some d => exact iff_of_true rfl rfl

end Run

/-! ### The accounts -/

/-- The counters agree with what has happened in a run that begins with nobody. -/
structure Accounts (setting : Setting) (moves : List Move) (w : World) : Prop where
  /-- Each refresh that has ended is counted once, by whether it succeeded. -/
  refreshes : ∀ succeeded, w.catalog.metrics.value (Metrics.refreshCounter succeeded) =
    moves.countP fun m => (m.ending? setting).any (·.products?.isSome = succeeded)
  allRefreshes : w.catalog.metrics.total (counts "catalog_refreshes_total") =
    moves.countP fun m => (m.ending? setting).isSome
  /-- Without a cache, and so without a worker, there are none. -/
  direct : setting.isCached = false → (∀ m ∈ moves, ∀ interval, m.action ≠ .start interval) →
    w.catalog.metrics.total (counts "catalog_refreshes_total") = 0
  /-- The number of products that is shown is that of the snapshot. -/
  size : w.catalog.metrics.catalogSize? = w.catalog.snapshot.map List.length
  /-- Each request for a segment that has been given one of some products is counted once, by its
  number of rules. -/
  segments : ∀ bucket, w.catalog.metrics.value (Metrics.segmentCounter bucket) =
    moves.countP fun m => (m.evaluated? setting).any (isInBucket bucket)
  allSegments : w.catalog.metrics.total (counts "segment_evaluations_total") =
    moves.countP fun m => (m.evaluated? setting).isSome
  /-- Each response is counted once, by its status, where responses are counted. -/
  responses : setting.isLayered = true → ∀ status,
    w.catalog.metrics.total (countsStatus status) =
      moves.countP fun m => m.served?.any (·.2.status = status)
  allResponses : setting.isLayered = true →
    w.catalog.metrics.total (counts "http_requests_total") =
      moves.countP fun m => m.served?.isSome
  /-- So many clients have been sent such responses. -/
  answered : ∀ p : Web.Response → Bool,
    (moves.countP fun m => m.served?.any (p ·.2)) = w.clients.countP (·.response?.any p)

/-- **The counters agree with what has happened**, whatever clients and workers do and in whatever
order they go on. -/
theorem Run.accounts (h : Run setting .initial moves w) : Accounts setting moves w where
  refreshes := h.value_refreshCounter
  allRefreshes := h.total_refreshes
  direct := by
    intro direct noWorker
    rw [h.total_refreshes, List.countP_eq_zero]
    intro m hm
    rw [h.ending?_eq_none direct noWorker m hm]
    exact Bool.false_ne_true
  size := h.catalogSize?_eq
  segments := h.value_segmentCounter
  allSegments := h.total_segments
  responses := h.total_status
  allResponses := h.total_responses
  answered := h.countP_served?

/-- A supplier that refuses at first, and has a lamp then. -/
def reluctant : Catalog.Supplier := fun call =>
  if call = 0 then ⟨.error .rejected, 0⟩ else ⟨.ok [lamp], 3⟩

/-- A service that counts its responses and asks a reluctant supplier. -/
def counting : Setting := { Setting.cached ⟨reluctant, .standard⟩ with isLayered := true }

/-- Two requests for a segment, the first of which is refused, overlap with a refresh, and then
comes a request for nothing that there is. -/
theorem Run.accounts_reluctant : ∃ moves w, Run counting .initial moves w ∧
    w.catalog.metrics.value (Metrics.refreshCounter true) = 2 ∧
    w.catalog.metrics.value (Metrics.refreshCounter false) = 1 ∧
    w.catalog.metrics.catalogSize? = some 1 ∧
    w.catalog.metrics.total (counts "segment_evaluations_total") = 1 ∧
    w.catalog.metrics.total (counts "http_requests_total") = 3 ∧
    Accounts counting moves w := by
  have played : (World.initial.play? counting [.enter (.request onSale), .enter (.request onSale),
      .enter .refresh, .client 0, .client 1, .wait 3, .client 2, .client 1,
      .enter (.request ⟨"GET", "/", [], []⟩)]).any (fun result =>
        result.2.catalog.metrics.value (Metrics.refreshCounter true) = 2 ∧
        result.2.catalog.metrics.value (Metrics.refreshCounter false) = 1 ∧
        result.2.catalog.metrics.catalogSize? = some 1 ∧
        result.2.catalog.metrics.total (counts "segment_evaluations_total") = 1 ∧
        result.2.catalog.metrics.total (counts "http_requests_total") = 3) = true := by
    decide +kernel
  obtain ⟨moves, w, run, counted⟩ := exists_of_play? played
  obtain ⟨succeeded, failed, size, segments, responses⟩ := of_decide_eq_true counted
  exact ⟨moves, w, run, succeeded, failed, size, segments, responses, run.accounts⟩

end Service

end ProductSegments
