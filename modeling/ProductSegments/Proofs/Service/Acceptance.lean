import ProductSegments.Proofs.Product.Record
import ProductSegments.Proofs.Service.Evaluation

/-!
# The bodies of requests for a segment

A request for a segment that says that its body is JSON, and whose body is not too long, is accepted
by what the text of the body is: an object with one member "rules", which is a list of strings, or a
list of such a list alone.  Any other body is refused before anybody asks for products.

The list is a form that the interface does not speak of: records are read from the places of their
members too.  What other members of the object hold has to be values, but nobody looks at those.

## Main definitions

* `Service.AsksByName`, `Service.AsksInPlace` — the text asks for the segment of some rules.
* `Service.Accepts`, `Service.Refuses` — what becomes of a request.

## Main results

* `Service.document_rules_iff` — which texts hold which rules.
* `Service.Run.accepts_iff_asks` — **which bodies are accepted, and for which rules**.
* `Service.Run.not_accepts_iff_asksByName` — not only objects are accepted.
-/

namespace ProductSegments

open Catalog (State Visit Worker Outcome)

theorem Web.Response.TellsSegment.status {response : Web.Response} {rules : List String}
    {outcome : Outcome} (h : response.TellsSegment rules outcome) :
    response.status = 200 ∨ response.status = 500 := by
  cases outcome with
  | error failure => exact .inr h.1
  | ok products =>
    cases products with
    | nil => exact .inl h.1
    | cons p ps => exact .inl h.2.1

namespace Service

/-! ### Texts that ask for a segment -/

/-- The text is an object with one member "rules", which is a list of the rules. -/
def AsksByName (rules : List String) (t : List UInt8) : Prop :=
  ∃ value, Json.HasMember "rules".toList value t ∧ Json.HoldsTexts rules value

/-- The text is a list of a list of the rules. -/
def AsksInPlace (rules : List String) (t : List UInt8) : Prop :=
  ∃ value, Json.IsArray [value] t ∧ Json.HoldsTexts rules value

theorem rulesReader_eq : rulesReader =
    Json.record [(Json.single "rules" (Json.array Product.textReader)).member] none id := rfl

/-- **Which texts hold which rules.** -/
theorem document_rules_iff {rules : List String} {t : List UInt8} :
    Json.document rulesReader t = .ok rules ↔ AsksByName rules t ∨ AsksInPlace rules t := by
  rw [rulesReader_eq, Json.document_single_iff (Json.local_array Product.local_textReader)]
  simp only [Product.document_texts_iff, AsksByName, AsksInPlace, or_and_right, exists_or]

/-- A text that begins with a bracket is no object. -/
theorem not_asksByName_bracket (rules : List String) (behind : List UInt8) :
    ¬AsksByName rules (Json.byte '[' :: behind) := by
  rintro ⟨value, ⟨told, ⟨parts, encloses, -⟩, -⟩, -⟩
  exact absurd (Json.opening_of_encloses encloses (by decide)) (by decide)

/-! ### What becomes of a request -/

/-- A request is accepted for some rules. -/
structure Accepts (setting : Setting) (w : World) (r : Web.Request) (rules : List String) :
    Prop where
  /-- It consults the catalog once.  However the run goes on, its client still waits for that, or has
  been told the segment, or the failure. -/
  told : ∀ more next, Run setting (w.enter setting (.request r)) more next →
    let visits := returnsTo setting w.clients.length (.ofRequest setting w r :: more)
    (visits = [] ∧ ∃ purpose visit,
      next.clients[w.clients.length]? = some (.visiting purpose visit)) ∨
    ∃ visit sent, visits = [visit] ∧
      next.clients[w.clients.length]? = some (.answered (.response sent)) ∧
      sent.TellsSegment rules visit.outcome
  /-- An answer comes, if only the clients go on and time passes. -/
  settles : ∀ more next, Run setting (w.enter setting (.request r)) more next →
    ∃ rest last sent, Run setting next rest last ∧ (∀ m ∈ rest, m.action.isOnward = true) ∧
      last.clients[w.clients.length]? = some (.answered (.response sent))

/-- A request is refused at once, because of a fault of its body.  Nobody is called, no turn is asked
for, and of what is kept and counted nothing changes but the series about requests. -/
def Refuses (setting : Setting) (w : World) (r : Web.Request) : Prop :=
  ∃ (fault : Json.Fault) (sent : Web.Response) (metrics : Metrics),
    w.enter setting (.request r) = { w with
      catalog := { w.catalog with metrics }
      clients := w.clients ++ [.answered (.response sent)]
      ids := w.ids + 1 } ∧
    (∀ series : Series, series.isOfRequests = false → w.catalog.metrics.SameAt metrics series) ∧
    sent.status = 400 ∧ sent.body = Json.Writer.object [
      ("code", Json.Writer.string "INVALID_REQUEST"),
      ("details", Json.Writer.string (setting.wording r (.document fault))),
      ("error", Json.Writer.string "Invalid request format"),
      ("success", Json.Writer.flag false)]

section Request

variable {setting : Setting} {w : World} {moves : List Move} {r : Web.Request} {rules : List String}

/-- What is refused is not accepted. -/
theorem Refuses.not_accepts (h : Refuses setting w r) : ¬Accepts setting w r rules := by
  obtain ⟨fault, sent, metrics, enters, -, status, -⟩ := h
  intro accepts
  have client : (w.enter setting (.request r)).clients[w.clients.length]? =
      some (.answered (.response sent)) := by
    rw [enters]
    exact List.getElem?_concat_length
  rcases accepts.told [] _ .refl with ⟨-, purpose, visit, waits⟩ |
    ⟨visit, sent', -, answered, tells⟩
  · cases client.symm.trans waits
  · obtain rfl : sent = sent' := by
      simpa using client.symm.trans answered
    rcases tells.status with ok | failed <;> omega

/-- The rules of a request whose body may be read are those that it asks for. -/
theorem rules?_of_json (json : saysJson r.headers = true) (fits : r.body.length ≤ bodyLimit) :
    rules? r = (Json.document rulesReader r.body).mapError .document := by
  rw [rules?, json, Bool.not_true, if_neg Bool.false_ne_true, if_neg (Nat.not_lt.mpr fits)]
  cases Json.document rulesReader r.body with
  | ok rules => rfl
  | error fault => rfl

/-- **Which bodies are accepted, and for which rules**, in every state that the service can get
into. -/
theorem Run.accepts_iff_asks (usual : setting.routes = routes) (h : Run setting .initial moves w)
    (post : r.method = "POST") (path : r.path = "/segments/evaluate")
    (json : saysJson r.headers = true) (fits : r.body.length ≤ bodyLimit) :
    let asks rules := AsksByName rules r.body ∨ AsksInPlace rules r.body
    ((∃ rules, Accepts setting w r rules) ↔ ∃ rules, asks rules) ∧
      (Refuses setting w r ↔ ¬∃ rules, asks rules) ∧
      ∀ rules, asks rules → Accepts setting w r rules := by
  intro asks
  have accepts (rules : List String) (body : asks rules) : Accepts setting w r rules := by
    have accepted : rules? r = .ok rules := by
      rw [rules?_of_json json fits, document_rules_iff.mpr body]
      rfl
    exact ⟨fun more next run => run.evaluation_told usual post path accepted,
      fun more next run => h.evaluation_settles run usual post path accepted⟩
  have refuses (body : ¬∃ rules, asks rules) : Refuses setting w r := by
    obtain ⟨fault, read⟩ : ∃ fault, Json.document rulesReader r.body = .error fault := by
      cases read : Json.document rulesReader r.body with
      | error fault => exact ⟨fault, rfl⟩
      | ok rules => exact absurd ⟨rules, document_rules_iff.mp read⟩ body
    have plan := Setting.plan_evaluate usual (r.id (setting.freshId w.ids)) post path
    rw [rules?_of_json json fits, read] at plan
    obtain ⟨sent, metrics, enters, shown, same⟩ := World.enter_of_response plan
    have head : r.method ≠ "HEAD" := by
      rw [post]
      decide
    rw [headOnly_of_ne head] at shown
    obtain ⟨status, written⟩ := Prod.mk.inj shown
    exact ⟨fault, sent, metrics, enters, same, status, written⟩
  refine ⟨⟨?_, fun ⟨rules, body⟩ => ⟨rules, accepts rules body⟩⟩, ⟨?_, refuses⟩, accepts⟩
  · rintro ⟨rules, accepted⟩
    by_contra body
    exact (refuses body).not_accepts accepted
  · rintro refused ⟨rules, body⟩
    exact refused.not_accepts (accepts rules body)

end Request

/-- Who asks for the products on sale while somebody else is waiting for all of them is accepted. -/
theorem Run.accepts_iff_asks_onSale : ∃ moves w,
    Run (.cached ⟨faltering, .standard⟩) .initial moves w ∧ w.clients.length = 1 ∧
    onSale.method = "POST" ∧ onSale.path = "/segments/evaluate" ∧
    saysJson onSale.headers = true ∧ onSale.body.length ≤ bodyLimit ∧
    Accepts (.cached ⟨faltering, .standard⟩) w onSale ["on_sale = true"] := by
  have played : (World.initial.play? (.cached ⟨faltering, .standard⟩)
      [.start 60000, .worker 0 .ticks, .enter .fetch, .wait 1]).any
      (fun result => result.2.clients.length = 1) = true := by
    decide +kernel
  obtain ⟨moves, w, run, one⟩ := Run.exists_of_play? played
  have path : onSale.path = "/segments/evaluate" := by decide +kernel
  have json : saysJson onSale.headers = true := by decide +kernel
  have fits : onSale.body.length ≤ bodyLimit := by decide +kernel
  have read : (Json.document rulesReader onSale.body).toOption = some ["on_sale = true"] := by
    decide +kernel
  have asks := document_rules_iff.mp (eq_ok_of_toOption read)
  exact ⟨moves, w, run, of_decide_eq_true one, rfl, path, json, fits,
    (run.accepts_iff_asks rfl rfl path json fits).2.2 _ asks⟩

/-- The same request with its rules in a list of their own, in place of the object. -/
def onSaleListed : Web.Request := { onSale with body := Utf8.ofString "[[\"on_sale = true\"]]" }

/-- **Not only objects are accepted**, but lists of a list too. -/
theorem Run.not_accepts_iff_asksByName : ¬∀ (setting : Setting) (moves : List Move) (w : World)
    (r : Web.Request), setting.routes = routes → Run setting .initial moves w →
    r.method = "POST" → r.path = "/segments/evaluate" → saysJson r.headers = true →
    r.body.length ≤ bodyLimit →
    ((∃ rules, Accepts setting w r rules) ↔ ∃ rules, AsksByName rules r.body) := by
  intro claim
  have path : onSaleListed.path = "/segments/evaluate" := by decide +kernel
  have json : saysJson onSaleListed.headers = true := by decide +kernel
  have fits : onSaleListed.body.length ≤ bodyLimit := by decide +kernel
  have accepted : (rules? onSaleListed).toOption = some ["on_sale = true"] := by decide +kernel
  have told : Accepts (.cached ⟨faltering, .standard⟩) .initial onSaleListed ["on_sale = true"] :=
    ⟨fun more next run => run.evaluation_told rfl rfl path (eq_ok_of_toOption accepted),
      fun more next run =>
        Run.refl.evaluation_settles run rfl rfl path (eq_ok_of_toOption accepted)⟩
  obtain ⟨rules, named⟩ := (claim (.cached ⟨faltering, .standard⟩) [] .initial onSaleListed rfl .refl
    rfl path json fits).mp ⟨_, told⟩
  have bracket : onSaleListed.body = Json.byte '[' :: onSaleListed.body.tail := by decide +kernel
  rw [bracket] at named
  exact not_asksByName_bracket rules _ named

end Service

end ProductSegments
