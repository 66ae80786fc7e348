import ProductSegments.Catalog.Source
import ProductSegments.Proofs.Catalog.Attempts

/-!
# What went wrong upstream

The answers of hosts may send the client on, and what comes of its last request decides what the
catalog gets.  A failure tells what happened up to the head of the answer.  It does not behind the
head: a body that is cut off, or late, counts as one that holds no products, and a refresh does not
call again.

## Main definitions

* `Web.SentOn` — the requests on the way from one to another.
* `Web.Ends` — the last request of an exchange.
* `Web.Reaction.isLate`, `Web.Reaction.isLost` — the deadline, or the end of the connection, comes
  before the client has all that it waits for.
* `Catalog.Source.Holds` — a body holds a list of products.
* `Catalog.Source.Account` — what the outcome of a request tells.
* `Catalog.Source.TellsTransport` — failures tell the deadline and the connection, in the body too.

## Main results

* `Web.exists_ends` — every exchange has a last request.
* `Catalog.Source.account_fetch` — what comes of an exchange, by its last request.
* `Catalog.lt_length_calls_retry_iff` — which calls are followed by another one.
* `Catalog.Source.failures_told` — **failures up to the head of an answer are told apart, and with
  the statuses from 500 on they are those after which a refresh calls again**.
* `Catalog.Source.not_tellsTransport` — behind the head they are not.
-/

namespace ProductSegments

namespace Web

/-! ### The last request of an exchange -/

/-- The client comes from the request with the number `n`, to `url`, to the request with the number
`m`, to `last`: it is sent on by all answers in between. -/
inductive SentOn (network : Network) :
    (n : Nat) → (url : Url) → (m : Nat) → (last : Url) → Prop where
  | here {n : Nat} {url : Url} : SentOn network n url n url
  | onward {n m : Nat} {url next last : Url} {answer : Answer}
      (answered : network n url = .answered answer) (sends : answer.onward? url = some (.web next))
      (rest : SentOn network (n + 1) next m last) : SentOn network n url m last

/-- The request with the number `n`, to `last`, is the last one of the exchange that begins with a
request to `url`: no answer sends the client on, or it does not go. -/
structure Ends (network : Network) (url : Url) (n : Nat) (last : Url) : Prop where
  sentOn : SentOn network 0 url n last
  le : n ≤ maxRedirects
  stays : n < maxRedirects → ∀ answer next, network n last = .answered answer →
    answer.onward? last ≠ some (.web next)

section Follow

variable {network : Network} {n m left : Nat} {url last next : Url} {answer : Answer}

theorem SentOn.le (h : SentOn network n url m last) : n ≤ m := by
  induction h with
  | here => exact Nat.le_refl _
  | onward _ _ _ ih => exact Nat.le_of_succ_le ih

/-- What comes of a request whose answer sends the client on. -/
theorem result_follow_succ (left : Nat) (answered : network n url = .answered answer)
    (sends : answer.onward? url = some (.web next)) :
    (follow network (left + 1) n url).result = (follow network left (n + 1) next).result := by
  rw [follow]
  simp only [answered, sends]

/-- The result of an exchange is that of any request on its way. -/
theorem SentOn.result_follow (h : SentOn network n url m last) (all : left + n = maxRedirects)
    (le : m ≤ maxRedirects) :
    (follow network left n url).result = (follow network (maxRedirects - m) m last).result := by
  induction h generalizing left with
  | @here n url =>
    obtain rfl : left = maxRedirects - n := by omega
    rfl
  | @onward n m url next last answer answered sends rest ih =>
    have more := rest.le
    obtain ⟨left, rfl⟩ : ∃ rest, left = rest + 1 := ⟨left - 1, by omega⟩
    rw [result_follow_succ left answered sends]
    exact ih (by omega) le

theorem exists_ends_from (network : Network) (all : left + n = maxRedirects) (url : Url) :
    ∃ m last, SentOn network n url m last ∧ m ≤ maxRedirects ∧
      (m < maxRedirects → ∀ answer next, network m last = .answered answer →
        answer.onward? last ≠ some (.web next)) := by
  -- by induction on how often the client may still be sent on
  induction left generalizing n url with
  | zero => exact ⟨n, url, .here, by omega, fun lt => by omega⟩
  | succ left ih =>
    by_cases sent : ∃ answer next, network n url = .answered answer ∧
        answer.onward? url = some (.web next)
    · obtain ⟨answer, next, answered, sends⟩ := sent
      obtain ⟨m, last, rest, ends⟩ := @ih (n + 1) (by omega) next
      exact ⟨m, last, .onward answered sends rest, ends⟩
    · refine ⟨n, url, .here, by omega, fun _ answer next answered sends => ?_⟩
      exact sent ⟨answer, next, answered, sends⟩

/-- **Every exchange has a last request.** -/
theorem exists_ends (network : Network) (url : Url) : ∃ n last, Ends network url n last := by
  obtain ⟨n, last, sentOn, le, stays⟩ := exists_ends_from network
    (Nat.add_zero maxRedirects) url
  exact ⟨n, last, sentOn, le, stays⟩

/-- The result of an exchange is that of its last request. -/
theorem Ends.result_get (h : Ends network url n last) :
    (get network (.web url)).result = (follow network (maxRedirects - n) n last).result :=
  h.sentOn.result_follow (Nat.add_zero maxRedirects) h.le

/-- The answer to a last request is the result, unless it would send the client on. -/
theorem Ends.result_eq_ok (h : Ends network url n last)
    (answered : network n last = .answered answer) (stays : answer.onward? last = none) :
    (get network (.web url)).result = .ok answer := by
  rw [h.result_get, follow]
  simp only [answered, stays]

/-- A last request whose answer would send the client on is to go nowhere, or too far. -/
theorem Ends.result_eq_error (h : Ends network url n last)
    (answered : network n last = .answered answer) (sends : answer.onward? last ≠ none) :
    (get network (.web url)).result = .error .address ∨
      (get network (.web url)).result = .error .redirects := by
  obtain ⟨reference, sends⟩ := Option.ne_none_iff_exists'.mp sends
  rw [h.result_get, follow]
  simp only [answered, sends]
  cases reference with
  | foreign => exact .inl rfl
  | malformed => exact .inl rfl
  | web next =>
    -- the client would go, were it not for the number of requests before
    obtain rfl : n = maxRedirects := by
      refine Nat.le_antisymm h.le (Nat.le_of_not_lt ?_)
      intro lt
      exact h.stays lt answer next answered sends
    exact .inr rfl

end Follow

/-- An answer that brings something sends nobody on. -/
theorem Answer.onward?_eq_none {answer : Answer} (success : answer.isSuccess = true) (url : Url) :
    answer.onward? url = none := by
  have notRedirect : answer.isRedirect = false := by
    simp only [isSuccess, Bool.and_eq_true, decide_eq_true_eq] at success
    simp only [isRedirect, List.contains_eq_mem, decide_eq_false_iff_not, List.mem_cons,
      List.not_mem_nil, or_false]
    omega
  rw [onward?, notRedirect]
  rfl

theorem Answer.isSuccess_iff (answer : Answer) :
    answer.isSuccess = true ↔ 200 ≤ answer.status ∧ answer.status < 300 := by
  rw [isSuccess, Bool.and_eq_true, decide_eq_true_eq, decide_eq_true_eq]

theorem Answer.isSuccess_eq_false_iff (answer : Answer) :
    answer.isSuccess = false ↔ answer.status < 200 ∨ 300 ≤ answer.status := by
  rw [← Bool.not_eq_true, isSuccess_iff]
  omega

namespace Reaction

/-- The deadline passes before the client has all that it waits for: the head of the answer, and the
body if the status is that of a success. -/
def isLate : Reaction → Bool
  | late => true
  | answered answer => answer.isSuccess && answer.arrival = .late
  | refused | lost => false

/-- There is no connection, or it ends before the client has all that it waits for. -/
def isLost : Reaction → Bool
  | refused | lost => true
  | answered answer => answer.isSuccess && answer.arrival = .lost
  | late => false

end Reaction

end Web

namespace Catalog

open Web (Network Url Answer Ends Reaction)

/-! ### Which calls are followed by another one -/

/-- **A call is followed by another one** exactly if no call up to it has a final outcome, and the
policy allows it. -/
theorem lt_length_calls_retry_iff (policy : Backoff) (retryable : Failure → Bool)
    (supplier : Supplier) (i : Nat) :
    i + 1 < (retry policy retryable supplier).calls.length ↔
      i < policy.maxRetries.toNat ∧ ∀ j ≤ i, isFinal retryable (supplier j).outcome = false := by
  obtain ⟨n, le, before, last, calls⟩ := retry_eq policy retryable supplier
  rw [calls, List.length_map, List.length_range]
  constructor
  · intro lt
    exact ⟨by omega, fun j hj => before j (by omega)⟩
  · rintro ⟨allowed, all⟩
    refine Nat.lt_of_not_le ?_
    intro ge
    -- the last call would have a final outcome
    have final := last (by omega)
    rw [all n (by omega)] at final
    cases final

/-! ### Reading a body -/

namespace Source

/-- The body holds a list of products, or a word that there is none. -/
def Holds (source : Source) (body : List UInt8) : Prop :=
  match source with
  | productService _ => ∃ list, Json.document ProductList.reader body = .ok list
  | shop .. => ∃ records, Shop.records? body = .ok records

/-- A body does not hold a list of products exactly if it cannot be decoded. -/
theorem read_eq_undecodable_iff (source : Source) (body : List UInt8) :
    (∃ reason, source.read body = .error (.undecodable reason)) ↔ ¬source.Holds body := by
  cases source with
  | productService _ =>
    unfold read Holds
    cases Json.document ProductList.reader body with
    | error => exact iff_of_true ⟨_, rfl⟩ fun ⟨_, h⟩ => nomatch h
    | ok list =>
      refine iff_of_false (fun ⟨reason, h⟩ => ?_) fun h => h ⟨list, rfl⟩
      dsimp only at h
      split at h <;> cases h
  | shop =>
    unfold read Holds
    cases Shop.records? body with
    | error => exact iff_of_true ⟨_, rfl⟩ fun ⟨_, h⟩ => nomatch h
    | ok records => exact iff_of_false (fun ⟨_, h⟩ => nomatch h) fun h => h ⟨records, rfl⟩

/-- No failure to read a body is one of transport or status. -/
theorem isFinal_read (source : Source) (body : List UInt8) :
    isFinal Failure.isRetryable (source.read body) = true := by
  cases source with
  | productService _ =>
    unfold read
    cases Json.document ProductList.reader body with
    | error => rfl
    | ok list =>
      dsimp only
      split <;> rfl
  | shop =>
    unfold read
    cases Shop.records? body <;> rfl

/-! ### What an outcome tells -/

/-- What the outcome of an exchange tells about the reaction to its last request, which is one to
`last`. -/
structure Account (source : Source) (last : Url) (reaction : Reaction) (outcome : Outcome) :
    Prop where
  /-- The deadline has passed before the head of an answer. -/
  late : reaction = .late → outcome = .error (.timedOut source.name)
  /-- There was no connection, or it has ended before the head of an answer. -/
  lost : reaction = .refused ∨ reaction = .lost → ∃ reason, outcome = .error (.unavailable reason)
  /-- The answer would send the client to where it cannot go. -/
  astray : ∀ answer, reaction = .answered answer → answer.onward? last ≠ none →
    ∃ reason, outcome = .error (.unavailable reason)
  /-- The status is not that of a success. -/
  status : ∀ answer, reaction = .answered answer → answer.onward? last = none →
    answer.status < 200 ∨ 300 ≤ answer.status → outcome = .error (.status answer.status)
  /-- A body has arrived. -/
  arrived : ∀ answer body, reaction = .answered answer →
    200 ≤ answer.status ∧ answer.status < 300 → answer.arrival = .complete body →
    outcome = source.read body
  /-- A body has begun to arrive, and the rest of it was lost or late. -/
  broken : ∀ answer, reaction = .answered answer →
    200 ≤ answer.status ∧ answer.status < 300 → answer.arrival = .lost ∨ answer.arrival = .late →
    ∃ reason, outcome = .error (.undecodable reason)

section Fetch

variable {source : Source} {network : Network} {url last : Url} {n : Nat} {answer : Answer}

/-- Nothing can be asked for at an address that is none of the web. -/
theorem fetch_of_not_web (network : Network) (astray : ∀ url, source.address ≠ .web url) :
    ∃ reason, (source.fetch network).2 = .error (.unavailable reason) := by
  unfold fetch
  cases h : source.address with
  | web url => exact absurd h (astray url)
  | foreign => exact ⟨_, rfl⟩
  | malformed => exact ⟨_, rfl⟩

/-- **What comes of an exchange**, by its last request. -/
theorem account_fetch (address : source.address = .web url) (ends : Ends network url n last) :
    source.Account last (network n last) (source.fetch network).2 := by
  have outcome : (source.fetch network).2 =
      source.outcome (Web.get network (.web url)).result := by
    rw [fetch, address]
  rw [outcome]
  constructor
  case late =>
    intro late
    rw [ends.result_get, Web.follow]
    simp only [late, Source.outcome]
  case lost =>
    rintro (refused | lost)
    · rw [ends.result_get, Web.follow]
      simp only [refused, Source.outcome]
      exact ⟨_, rfl⟩
    · rw [ends.result_get, Web.follow]
      simp only [lost, Source.outcome]
      exact ⟨_, rfl⟩
  case astray =>
    intro answer answered sends
    rcases ends.result_eq_error answered sends with h | h
    · rw [h]
      exact ⟨_, rfl⟩
    · rw [h]
      exact ⟨_, rfl⟩
  case status =>
    intro answer answered stays status
    rw [ends.result_eq_ok answered stays, Source.outcome,
      (answer.isSuccess_eq_false_iff).mpr status]
    rfl
  case arrived =>
    intro answer body answered status arrived
    have success := answer.isSuccess_iff.mpr status
    rw [ends.result_eq_ok answered (Answer.onward?_eq_none success last), Source.outcome, success,
      arrived]
    rfl
  case broken =>
    intro answer answered status broken
    have success := answer.isSuccess_iff.mpr status
    rw [ends.result_eq_ok answered (Answer.onward?_eq_none success last), Source.outcome, success]
    rcases broken with h | h
    · rw [h]
      exact ⟨_, rfl⟩
    · rw [h]
      exact ⟨_, rfl⟩

end Fetch

namespace Account

variable {source : Source} {last : Url} {reaction : Reaction} {outcome : Outcome}

/-- An outcome tells that nothing could be decoded exactly if the status is that of a success, and
no body that holds a list of products has arrived. -/
theorem undecodable_iff (account : source.Account last reaction outcome) :
    (∃ reason, outcome = .error (.undecodable reason)) ↔
      ∃ answer, reaction = .answered answer ∧ 200 ≤ answer.status ∧ answer.status < 300 ∧
        ∀ body, answer.arrival = .complete body → ¬source.Holds body := by
  constructor
  · rintro ⟨reason, rfl⟩
    cases reaction with
    | refused =>
      obtain ⟨other, h⟩ := account.lost (.inl rfl)
      cases h
    | lost =>
      obtain ⟨other, h⟩ := account.lost (.inr rfl)
      cases h
    | late => cases account.late rfl
    | answered answer =>
      by_cases status : 200 ≤ answer.status ∧ answer.status < 300
      · refine ⟨answer, rfl, status.1, status.2, fun body arrived => ?_⟩
        have read := account.arrived answer body rfl status arrived
        exact (source.read_eq_undecodable_iff body).mp ⟨reason, read.symm⟩
      · by_cases stays : answer.onward? last = none
        · cases account.status answer rfl stays (by omega)
        · obtain ⟨other, h⟩ := account.astray answer rfl stays
          cases h
  · rintro ⟨answer, rfl, ge, lt, empty⟩
    cases arrival : answer.arrival with
    | complete body =>
      rw [account.arrived answer body rfl ⟨ge, lt⟩ arrival]
      exact (source.read_eq_undecodable_iff body).mpr (empty body arrival)
    | lost => exact account.broken answer rfl ⟨ge, lt⟩ (.inl arrival)
    | late => exact account.broken answer rfl ⟨ge, lt⟩ (.inr arrival)

/-- A policy may repeat an exchange exactly if it has failed before the head of an answer, has led
astray, or has brought a status from 500 on. -/
theorem isFinal_eq_false_iff (account : source.Account last reaction outcome) :
    isFinal Failure.isRetryable outcome = false ↔
      (reaction = .refused ∨ reaction = .lost ∨ reaction = .late) ∨
      ∃ answer, reaction = .answered answer ∧
        (answer.onward? last ≠ none ∨ 500 ≤ answer.status) := by
  cases reaction with
  | refused =>
    obtain ⟨reason, rfl⟩ := account.lost (.inl rfl)
    exact iff_of_true rfl (.inl (.inl rfl))
  | lost =>
    obtain ⟨reason, rfl⟩ := account.lost (.inr rfl)
    exact iff_of_true rfl (.inl (.inr (.inl rfl)))
  | late =>
    obtain rfl := account.late rfl
    exact iff_of_true rfl (.inl (.inr (.inr rfl)))
  | answered answer =>
    have simpler : ((Reaction.answered answer = .refused ∨ Reaction.answered answer = .lost ∨
        Reaction.answered answer = .late) ∨ ∃ other, Reaction.answered answer = .answered other ∧
          (other.onward? last ≠ none ∨ 500 ≤ other.status)) ↔
        (answer.onward? last ≠ none ∨ 500 ≤ answer.status) := by
      simp
    rw [simpler]
    by_cases status : 200 ≤ answer.status ∧ answer.status < 300
    · -- what is read, or cannot be, is never asked for again
      have stays := Answer.onward?_eq_none (answer.isSuccess_iff.mpr status) last
      refine iff_of_false ?_ (by simp only [stays, ne_eq, not_true, false_or]; omega)
      cases arrival : answer.arrival with
      | complete body =>
        rw [account.arrived answer body rfl status arrival, isFinal_read]
        exact Bool.noConfusion
      | lost =>
        obtain ⟨reason, rfl⟩ := account.broken answer rfl status (.inl arrival)
        exact Bool.noConfusion
      | late =>
        obtain ⟨reason, rfl⟩ := account.broken answer rfl status (.inr arrival)
        exact Bool.noConfusion
    · by_cases stays : answer.onward? last = none
      · rw [account.status answer rfl stays (by omega)]
        simp [isFinal, Failure.isRetryable, stays]
      · obtain ⟨reason, rfl⟩ := account.astray answer rfl stays
        exact iff_of_true rfl (.inl stays)

end Account

/-! ### After what a refresh calls again -/

/-- What happened upstream may pass: nothing could be asked for, or the last request has failed
before the head of an answer, has led astray, or has brought a status from 500 on. -/
def Passing (source : Source) (network : Network) : Prop :=
  (∀ url, source.address ≠ .web url) ∨
  ∃ url n last, source.address = .web url ∧ Ends network url n last ∧
    ((network n last = .refused ∨ network n last = .lost ∨ network n last = .late) ∨
      ∃ answer, network n last = .answered answer ∧
        (answer.onward? last ≠ none ∨ 500 ≤ answer.status))

/-- A policy may repeat an exchange exactly if what happened may pass. -/
theorem isFinal_fetch_eq_false_iff (source : Source) (network : Network) :
    isFinal Failure.isRetryable (source.fetch network).2 = false ↔ source.Passing network := by
  by_cases astray : ∀ url, source.address ≠ .web url
  · obtain ⟨reason, h⟩ := fetch_of_not_web network astray
    rw [h]
    exact iff_of_true rfl (.inl astray)
  · obtain ⟨url, address⟩ := not_forall_not.mp astray
    obtain ⟨n, last, ends⟩ := Web.exists_ends network url
    constructor
    · intro passes
      exact .inr ⟨url, n, last, address, ends, (account_fetch address ends).isFinal_eq_false_iff.mp
        passes⟩
    · rintro (other | ⟨url', n, last, address', ends, passes⟩)
      · exact absurd other astray
      · exact (account_fetch address' ends).isFinal_eq_false_iff.mpr passes

/-- The supplier that a source is, if its exchanges find the given networks and last as long. -/
def supplier (source : Source) (networks : Nat → Network) (delays : Nat → Nat) : Supplier :=
  fun i => ⟨(source.fetch (networks i)).2, delays i⟩

/-- **Failures up to the head of an answer are told apart**, for both kinds of sources and whatever
the network does: by what comes of the last request, the outcome tells the deadline, the
connection and the status.  It tells that nothing could be decoded exactly if the status was that of
a success and no body that holds a list of products has arrived, be it that the rest of the body was
lost or late.  A refresh calls again exactly after the failures before the head of an answer and the
statuses from 500 on, as often as its policy allows. -/
theorem failures_told (source : Source) :
    (∀ network, (∀ url, source.address ≠ .web url) →
      ∃ reason, (source.fetch network).2 = .error (.unavailable reason)) ∧
    (∀ network url, source.address = .web url →
      (∃ n last, Ends network url n last) ∧
      ∀ n last, Ends network url n last →
        source.Account last (network n last) (source.fetch network).2 ∧
        ((∃ reason, (source.fetch network).2 = .error (.undecodable reason)) ↔
          ∃ answer, network n last = .answered answer ∧
            200 ≤ answer.status ∧ answer.status < 300 ∧
            ∀ body, answer.arrival = .complete body → ¬source.Holds body)) ∧
    ∀ networks delays policy i,
      i + 1 < (retry policy Failure.isRetryable (source.supplier networks delays)).calls.length ↔
        i < policy.maxRetries.toNat ∧ ∀ j ≤ i, source.Passing (networks j) := by
  refine ⟨fun network => fetch_of_not_web network, fun network url address => ?_,
    fun networks delays policy i => ?_⟩
  · refine ⟨Web.exists_ends network url, fun n last ends => ?_⟩
    have account := account_fetch address ends
    exact ⟨account, account.undecodable_iff⟩
  · rw [lt_length_calls_retry_iff]
    have passes : ∀ j, isFinal Failure.isRetryable (source.supplier networks delays j).outcome =
        false ↔ source.Passing (networks j) :=
      fun j => source.isFinal_fetch_eq_false_iff (networks j)
    simp only [passes]

/-- A product service that sends the client on to a host that is late, and is asked again once. -/
theorem failures_told_overdue :
    let url : Url := ⟨false, "a".toList, none, ["products".toList], none⟩
    let next : Url := ⟨false, "b".toList, none, [[]], none⟩
    let network : Network := fun n _ =>
      if n = 0 then .answered ⟨302, some "http://b".toUTF8.toList, .lost⟩ else .late
    let source := productService "http://a/"
    source.address = .web url ∧ Ends network url 1 next ∧
      (source.fetch network).2 = .error (.timedOut "product-service") ∧
      1 < (retry { Backoff.standard with maxRetries := 1 } Failure.isRetryable
        (source.supplier (fun _ => network) fun _ => 0)).calls.length := by
  intro url next network source
  have address : source.address = .web url := by decide +kernel
  have sends : (Web.Answer.mk 302 (some "http://b".toUTF8.toList) .lost).onward? url =
      some (.web next) := by decide +kernel
  have ends : Ends network url 1 next :=
    ⟨.onward rfl sends .here, by decide, fun _ answer other answered => nomatch answered⟩
  obtain ⟨-, told, again⟩ := source.failures_told
  obtain ⟨account, -⟩ := (told network url address).2 1 next ends
  refine ⟨address, ends, account.late rfl, (again _ _ _ 0).mpr ⟨by decide, fun j _ => ?_⟩⟩
  exact .inr ⟨url, 1, next, address, ends, .inl (.inr (.inr rfl))⟩

/-! ### Behind the head of an answer -/

/-- Failures tell whether the deadline has passed and whether the connection was lost, at any point
of an exchange. -/
def TellsTransport (source : Source) : Prop :=
  ∀ network url n last, source.address = .web url → Ends network url n last →
    ((network n last).isLate = true →
      ∃ service, (source.fetch network).2 = .error (.timedOut service)) ∧
    ((network n last).isLost = true →
      ∃ reason, (source.fetch network).2 = .error (.unavailable reason))

/-- The network in which the body of every answer arrives in the same way. -/
def uniform (arrival : Web.Arrival) : Network :=
  fun _ _ => .answered ⟨200, none, arrival⟩

theorem ends_uniform (arrival : Web.Arrival) (url : Url) : Ends (uniform arrival) url 0 url := by
  refine ⟨.here, Nat.zero_le _, fun _ answer next answered => ?_⟩
  obtain rfl := Reaction.answered.inj answered
  rw [Answer.onward?_eq_none rfl]
  exact (Option.some_ne_none _).symm

/-- **A body that is cut off, or late, is taken for one that holds no products**, by both kinds of
sources. -/
theorem not_tellsTransport :
    ¬(productService "http://localhost").TellsTransport ∧
    ¬(shop "http://localhost" "" "" 100).TellsTransport := by
  have fails : ∀ source url, Source.address source = .web url → ¬source.TellsTransport := by
    intro source url address tells
    obtain ⟨reason, told⟩ :=
      (tells (uniform .lost) url 0 url address (ends_uniform .lost url)).2 rfl
    obtain ⟨other, read⟩ := (account_fetch address (ends_uniform .lost url)).broken
      ⟨200, none, .lost⟩ rfl ⟨by decide, by decide⟩ (.inl rfl)
    rw [told] at read
    cases read
  constructor
  · cases address : (productService "http://localhost").address with
    | web url => exact fails _ url address
    | foreign => exact absurd address (by decide +kernel)
    | malformed => exact absurd address (by decide +kernel)
  · cases address : (shop "http://localhost" "" "" 100).address with
    | web url => exact fails _ url address
    | foreign => exact absurd address (by decide +kernel)
    | malformed => exact absurd address (by decide +kernel)

end Source

end Catalog

end ProductSegments
