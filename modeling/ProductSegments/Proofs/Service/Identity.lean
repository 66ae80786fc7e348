import ProductSegments.Proofs.Service.Progress
import ProductSegments.Proofs.Service.Sent
import ProductSegments.Proofs.Text.Utf8

/-!
# The ids of requests

Every request that comes in is given an id: the first one that it was sent with, if that is plain
text, and else a new one.  What deals with the request is asked with this id, and the response tells
it, whatever the response is and whenever it comes.

## Main definitions

* `Web.idValues` — the ids that some headers tell.
* `Web.IsUuid` — the text of a random UUID.
* `Service.Drafted` — a response to a request with an id, before it goes out.
* `Service.requests` — how many requests have come in.
* `Service.Identified` — what becomes of the id of a request.

## Main results

* `Web.idValues_withId` — a response with an id tells one id.
* `Web.Request.idValue_id` — the id of a request can stand in a header.
* `Service.Run.ids_eq` — new ids are numbered by the requests.
* `Service.Run.answers_as_drafted` — a request waits with its id, or is answered with it.
* `Service.Run.identified` — **every response tells the id of its request**.
-/

namespace ProductSegments

namespace Web

/-! ### Headers -/

/-- The ids that some headers tell. -/
def idValues (headers : Headers) : List (List UInt8) :=
  (headers.filter fun header => header.1.toLower = idHeader).map Prod.snd

/-- **A response with an id tells one id**, whatever it told before. -/
theorem idValues_withId (id : List Char) (r : Response) :
    idValues (r.withId id).headers = [idValue id] := by
  have lower : idHeader.toLower = idHeader := by decide +kernel
  have others : (r.headers.filter fun header => header.1.toLower ≠ idHeader).filter
      (fun header => header.1.toLower = idHeader) = [] := by
    rw [List.filter_filter, List.filter_eq_nil_iff]
    intro header _ both
    obtain ⟨same, other⟩ := Bool.and_eq_true_iff.mp both
    exact of_decide_eq_true other (of_decide_eq_true same)
  have told : idValues (replace idHeader (idValue id) r.headers) = [idValue id] := by
    rw [idValues, replace, List.filter_append, others, List.nil_append,
      List.filter_cons_of_pos (by exact decide_eq_true lower)]
    rfl
  exact told

theorem isHeaderByte_of_isPlain {b : UInt8} (h : isPlain b = true) : Cors.isHeaderByte b = true := by
  simp only [isPlain, Cors.isHeaderByte, Bool.or_eq_true, Bool.and_eq_true, decide_eq_true_eq,
    UInt8.le_iff_toNat_le, UInt8.lt_iff_toNat_lt] at h ⊢
  rcases h with ⟨low, high⟩ | tab
  · refine .inl ⟨low, ?_⟩
    rintro rfl
    exact absurd high (by decide)
  · exact .inr tab

/-- What can stand in a header stands there as it is. -/
theorem idValue_eq {id : List Char} (h : (Utf8.encode id).all Cors.isHeaderByte = true) :
    idValue id = Utf8.encode id := if_pos h

/-! ### Ids that are sent -/

theorem toNat_lt_of_isPlain {b : UInt8} (h : isPlain b = true) : b.toNat < 0x80 := by
  simp only [isPlain, Bool.or_eq_true, Bool.and_eq_true, decide_eq_true_eq,
    UInt8.lt_iff_toNat_lt] at h
  rcases h with ⟨-, high⟩ | rfl
  · exact Nat.lt_of_lt_of_le high (by decide)
  · decide

/-- Plain text is written as it was read. -/
theorem encode_of_isPlain {value : List UInt8} (h : value.all isPlain = true) :
    Utf8.encode (value.map fun b => .ofNat b.toNat) = value := by
  have point : ∀ b ∈ value, (Char.ofNat b.toNat).toNat = b.toNat := by
    intro b hb
    have ascii := toNat_lt_of_isPlain (List.all_eq_true.mp h b hb)
    exact Utf8.toNat_charOfNat (.inl (by omega))
  rw [Utf8.encode_of_ascii, List.map_map]
  · refine (List.map_congr_left fun b hb => ?_).trans (List.map_id value)
    simp [point b hb]
  · intro c hc
    obtain ⟨b, hb, rfl⟩ := List.mem_map.mp hc
    rw [point b hb]
    exact toNat_lt_of_isPlain (List.all_eq_true.mp h b hb)

namespace Request

variable {r : Request}

/-- **The first id that is sent is taken as it is**, if it is plain text. -/
theorem encode_id {value : List UInt8} (first : first? idHeader r.headers = some value)
    (plain : value.all isPlain = true) (fresh : List Char) : Utf8.encode (r.id fresh) = value := by
  have same : r.id fresh = value.map fun b => .ofNat b.toNat := by
    simp only [Request.id, first, Option.bind_some, plainText?, if_pos plain, Option.getD_some]
  rw [same]
  exact encode_of_isPlain plain

/-- Otherwise the new one is taken, also if others have been sent. -/
theorem id_eq_fresh (h : ∀ value, first? idHeader r.headers = some value →
    value.all isPlain = false) (fresh : List Char) : r.id fresh = fresh := by
  unfold Request.id
  cases first : first? idHeader r.headers with
  | none => rfl
  | some value => simp [plainText?, h value first]

end Request

/-! ### New ids -/

/-- A hexadecimal digit, in lower case. -/
def isHexDigit (c : Char) : Bool := ('0' ≤ c && c ≤ '9') || ('a' ≤ c && c ≤ 'f')

/-- Where the hyphens of a UUID stand. -/
def hyphenPlaces : List Nat := [8, 13, 18, 23]

/-- The text of a random UUID: five groups of hexadecimal digits with hyphens between them, the third
of which begins with the version and the fourth with the variant. -/
structure IsUuid (cs : List Char) : Prop where
  length : cs.length = 36
  hyphens : ∀ i ∈ hyphenPlaces, cs[i]? = some '-'
  digits : ∀ i < 36, i ∉ hyphenPlaces → cs[i]?.any isHexDigit = true
  version : cs[14]? = some '4'
  variant : cs[19]?.any (['8', '9', 'a', 'b'].contains ·) = true

theorem isHexDigit_ascii {c : Char} (h : isHexDigit c = true) : c.toNat < 128 := by
  simp only [isHexDigit, Bool.or_eq_true, Bool.and_eq_true, decide_eq_true_eq, Char.le_def,
    UInt32.le_iff_toNat_le] at h
  rcases h with ⟨-, high⟩ | ⟨-, high⟩
  · exact Nat.lt_of_le_of_lt high (by decide)
  · exact Nat.lt_of_le_of_lt high (by decide)

/-- At every place of a UUID there is a digit or a hyphen. -/
theorem IsUuid.mem {cs : List Char} (h : IsUuid cs) {c : Char} (hc : c ∈ cs) :
    isHexDigit c = true ∨ c = '-' := by
  obtain ⟨i, hi, at'⟩ := List.mem_iff_getElem.mp hc
  have at' : cs[i]? = some c := List.getElem?_eq_some_iff.mpr ⟨hi, at'⟩
  by_cases hyphen : i ∈ hyphenPlaces
  · exact .inr (Option.some.inj (at'.symm.trans (h.hyphens i hyphen)))
  · have digit := h.digits i (h.length ▸ hi) hyphen
    rw [at', Option.any_some] at digit
    exact .inl digit

/-- A UUID can stand in a header. -/
theorem IsUuid.isHeaderByte {cs : List Char} (h : IsUuid cs) :
    (Utf8.encode cs).all Cors.isHeaderByte = true := by
  have ascii : ∀ c ∈ cs, c.toNat < 128 := by
    intro c hc
    rcases h.mem hc with digit | rfl
    · exact isHexDigit_ascii digit
    · decide
  have legal : ∀ n < 128, isHexDigit (Char.ofNat n) = true ∨ Char.ofNat n = '-' →
      Cors.isHeaderByte (UInt8.ofNat (Char.ofNat n).toNat) = true := by decide +kernel
  rw [Utf8.encode_of_ascii ascii, List.all_map, List.all_eq_true]
  intro c hc
  exact Text.of_ascii (P := fun c => isHexDigit c = true ∨ c = '-' →
    Cors.isHeaderByte (UInt8.ofNat c.toNat) = true) legal (ascii c hc) (h.mem hc)

/-- **The id of a request can stand in a header**, wherever it comes from. -/
theorem Request.idValue_id (r : Request) {fresh : List Char} (uuid : IsUuid fresh) :
    idValue (r.id fresh) = Utf8.encode (r.id fresh) := by
  apply idValue_eq
  by_cases sent : ∃ value, first? idHeader r.headers = some value ∧ value.all isPlain = true
  · obtain ⟨value, first, plain⟩ := sent
    rw [r.encode_id first plain, List.all_eq_true]
    exact fun b hb => isHeaderByte_of_isPlain (List.all_eq_true.mp plain b hb)
  · have others : ∀ value, first? idHeader r.headers = some value → value.all isPlain = false :=
      fun value first => Bool.eq_false_iff.mpr fun plain => sent ⟨value, first, plain⟩
    rw [r.id_eq_fresh others]
    exact uuid.isHeaderByte

end Web

namespace Service

open Catalog (State Visit Outcome)

variable {setting : Setting} {w next : World} {action : Action} {moves : List Move}
  {r : Web.Request}

/-! ### What goes out -/

theorem Draft.shown_sent (d : Draft) :
    (d.sent setting).shown = (headOnly d.request d.response).shown := by
  have marked : (setting.cors?.elim (headOnly d.request d.response)
      (·.mark d.request (headOnly d.request d.response))).shown =
        (headOnly d.request d.response).shown := by
    cases setting.cors? with
    | none => rfl
    | some cors => exact cors.shown_mark d.request _
  unfold sent
  dsimp only
  split
  · exact (Web.Response.shown_withId d.id _).trans marked
  · exact marked

/-- What goes out tells the id that it was drafted with, and no other. -/
theorem Draft.idValues_sent (layered : setting.isLayered = true) (d : Draft) :
    Web.idValues (d.sent setting).headers = [Web.idValue d.id] := by
  unfold sent
  rw [if_pos layered]
  exact Web.idValues_withId d.id _

/-- A response that is made for a request with an id, before it goes out: at once, or for what came of
consulting the catalog. -/
inductive Drafted (setting : Setting) (id : List Char) (r : Web.Request) : Web.Response → Prop where
  | atOnce {response : Web.Response} (planned : setting.plan id r = .inl response) :
      Drafted setting id r response
  | ordered {order : Order} (outcome : Outcome) (planned : setting.plan id r = .inr order) :
      Drafted setting id r (order.response setting.isTraced outcome)

/-- **A request waits with its id, or is answered with it**, however the run goes on. -/
theorem Run.answers_as_drafted (h : Run setting (w.enter setting (.request r)) moves next) :
    let id := r.id (setting.freshId w.ids)
    (∃ order visit, setting.plan id r = .inr order ∧
      next.clients[w.clients.length]? = some (.visiting (.serve ⟨r, id, order⟩) visit)) ∨
    ∃ response, Drafted setting id r response ∧ next.clients[w.clients.length]? =
      some (.answered (.response (Draft.sent setting ⟨r, id, response⟩))) := by
  intro id
  cases planned : setting.plan id r with
  | inl response =>
    refine .inr ⟨response, .atOnce planned, h.stays_answered ?_⟩
    rw [World.clients_enter_of_response planned]
    exact List.getElem?_concat_length
  | inr order =>
    obtain ⟨s, first, -, clients, -⟩ :=
      World.enter_of_purpose (World.purpose?_of_order planned)
    have client : (w.enter setting (.request r)).clients[w.clients.length]? =
        some (.after setting (.serve ⟨r, id, order⟩) first) := by
      rw [clients]
      exact List.getElem?_concat_length
    obtain ⟨result, -, client', -⟩ :=
      h.life (P := fun _ => True) (fun _ _ => trivial) trivial client
    cases result with
    | inl visit => exact .inl ⟨order, visit, rfl, client'⟩
    | inr outcome =>
      refine .inr ⟨_, .ordered outcome planned, client'.trans ?_⟩
      rw [Client.after, Purpose.reply_eq]
      rfl

/-! ### New ids -/

/-- A request comes in with the action. -/
def Action.isRequest : Action → Bool
  | .enter (.request _) => true
  | _ => false

/-- How many requests have come in with some moves. -/
def requests (moves : List Move) : Nat := moves.countP (·.action.isRequest)

theorem World.ids_consult (w : World) (purpose : Purpose) :
    (w.consult setting purpose).1.ids = w.ids := by
  obtain ⟨metrics, log, settled⟩ := w.settle_eq setting purpose (setting.consult purpose w.catalog)
  rw [World.consult_eq, settled]

theorem World.ids_enter_request (w : World) (r : Web.Request) :
    (w.enter setting (.request r)).ids = w.ids + 1 := by
  simp only [World.enter, World.receive]
  split
  · next response _ =>
    obtain ⟨metrics, sent⟩ := World.send_eq setting { w with ids := w.ids + 1 } r
      (r.id (setting.freshId w.ids)) response
    rw [sent]
  · exact World.ids_consult { w with ids := w.ids + 1 } _

/-- An id is made up for each request, and for nothing else. -/
theorem World.ids_of_act? (act : w.act? setting action = some next) :
    next.ids = w.ids + if action.isRequest then 1 else 0 := by
  cases action with
  | enter arrival =>
    obtain rfl := Option.some.inj act
    match arrival with
    | .fetch => exact World.ids_consult w .fetch
    | .refresh => exact World.ids_consult w .refresh
    | .request r => exact World.ids_enter_request w r
  | client index =>
    cases World.effect_stepClient? act
    rfl
  | worker index attention =>
    cases World.effect_stepWorker? act
    rfl
  | start interval => obtain rfl := Option.some.inj act; rfl
  | signal index value => obtain rfl := Option.some.inj act; rfl
  | close index => obtain rfl := Option.some.inj act; rfl
  | wait duration => obtain rfl := Option.some.inj act; rfl

/-- **New ids are numbered by the requests**, so no two requests are given the same one. -/
theorem Run.ids_eq (h : Run setting w moves next) : next.ids = w.ids + requests moves := by
  induction h with
  | refl => rfl
  | snoc run act ih =>
    rw [World.ids_of_act? act, ih, requests, requests, List.countP_append, List.countP_singleton,
      Nat.add_assoc]

/-! ### The id of a request -/

/-- What becomes of the id of a request that comes in after some moves, in the state that they have
led to. -/
structure Identified (setting : Setting) (moves : List Move) (w : World) (r : Web.Request)
    (id : List Char) : Prop where
  /-- It is the first id that was sent, byte by byte, if that is plain text. -/
  sent : ∀ value, Web.first? Web.idHeader r.headers = some value → value.all Web.isPlain = true →
    Utf8.encode id = value
  /-- Otherwise it is a UUID, a new one for each request. -/
  made : (∀ value, Web.first? Web.idHeader r.headers = some value →
    value.all Web.isPlain = false) → id = setting.freshId (requests moves) ∧ Web.IsUuid id
  /-- Nothing has to stand for it in a header. -/
  legal : Web.idValue id = Utf8.encode id
  /-- Where the id can be asked for, this one is told. -/
  told : ∀ path, route? setting.routes r = some (path, .identity) → r.method = "GET" →
    ∃ response, (w.enter setting (.request r)).clients[w.clients.length]? =
      some (.answered (.response response)) ∧ response.shown = (200, id)
  /-- However the run goes on, what deals with the request has this id: its client still waits with
  it, or has been sent the response that was made for it, which tells this id alone. -/
  carried : ∀ more next, Run setting (w.enter setting (.request r)) more next →
    (∃ order visit, setting.plan id r = .inr order ∧
      next.clients[w.clients.length]? = some (.visiting (.serve ⟨r, id, order⟩) visit)) ∨
    ∃ drafted response, Drafted setting id r drafted ∧
      next.clients[w.clients.length]? = some (.answered (.response response)) ∧
      response.shown = (headOnly r drafted).shown ∧
      Web.idValues response.headers = [Utf8.encode id]
  /-- A response comes, if only the clients go on and time passes. -/
  settles : ∀ more next, Run setting (w.enter setting (.request r)) more next →
    ∃ rest last response, Run setting next rest last ∧ (∀ m ∈ rest, m.action.isOnward = true) ∧
      last.clients[w.clients.length]? = some (.answered (.response response)) ∧
      Web.idValues response.headers = [Utf8.encode id]

/-- Who asks for the id of the request is to be told it. -/
theorem Setting.plan_identity {path : String}
    (route : route? setting.routes r = some (path, .identity)) (get : r.method = "GET")
    (id : List Char) : setting.plan id r = .inl (.of 200 "text/plain; charset=utf-8" id) := by
  have noQuestion : Web.Cors.isPreflight r = false := by
    rw [Web.Cors.isPreflight, get]
    decide
  have welcome : Endpoint.identity.methods.contains r.method = true := by
    rw [get]
    decide
  rw [Setting.plan, guardedPlan, noQuestion, Bool.and_false, if_neg Bool.false_ne_true,
    Service.plan, route]
  simp only [welcome]
  rfl

/-- **Every response tells the id of its request**: the first one sent, or a new one.  The same id
has been given to whatever has made the response. -/
theorem Run.identified (layered : setting.isLayered = true)
    (uuids : ∀ n, Web.IsUuid (setting.freshId n)) (h : Run setting .initial moves w)
    (r : Web.Request) : ∃ id, Identified setting moves w r id := by
  let id := r.id (setting.freshId w.ids)
  have legal : Web.idValue id = Utf8.encode id := r.idValue_id (uuids w.ids)
  have numbered : w.ids = requests moves := h.ids_eq.trans (Nat.zero_add _)
  have tells (response : Web.Response) :
      Web.idValues (Draft.sent setting ⟨r, id, response⟩).headers = [Utf8.encode id] := by
    rw [Draft.idValues_sent layered, legal]
  refine ⟨id, ?_⟩
  constructor
  case sent => exact fun value first plain => r.encode_id first plain _
  case made =>
    intro others
    have fresh : id = setting.freshId w.ids := r.id_eq_fresh others _
    exact ⟨fresh.trans (congrArg setting.freshId numbered), fresh ▸ uuids w.ids⟩
  case legal => exact legal
  case told =>
    intro path route get
    have head : r.method ≠ "HEAD" := by
      rw [get]
      decide
    refine ⟨Draft.sent setting ⟨r, id, .of 200 "text/plain; charset=utf-8" id⟩, ?_, ?_⟩
    · rw [World.clients_enter_of_response (Setting.plan_identity route get _)]
      exact List.getElem?_concat_length
    · rw [Draft.shown_sent, headOnly_of_ne head]
      rfl
  case carried =>
    intro more next run
    rcases run.answers_as_drafted with waits | ⟨response, drafted, client⟩
    · exact .inl waits
    · exact .inr ⟨response, _, drafted, client, Draft.shown_sent _, tells response⟩
  case settles =>
    intro more next run
    have entry : Run setting w
        (⟨w, .enter (.request r), w.enter setting (.request r)⟩ :: more) next :=
      Run.cons_iff.mpr ⟨rfl, rfl, run⟩
    obtain ⟨rest, last, onwards, onward, all⟩ : ∃ rest last, Run setting next rest last ∧
        (∀ m ∈ rest, m.action.isOnward = true) ∧ ∀ c ∈ last.clients, c.isAnswered = true :=
      (h.append entry).orderly.settles
    rcases (run.append onwards).answers_as_drafted with ⟨order, visit, -, waits⟩ |
      ⟨response, -, client⟩
    · cases all _ (List.mem_of_getElem? waits)
    · exact ⟨rest, last, _, onwards, onward, client, tells response⟩

/-- A service with everything around it, whose catalog cannot be had. -/
def labelling : Setting where
  terms := ⟨fun _ => ⟨.error .rejected, 20⟩, .none⟩
  isCached := true
  isLayered := true
  isTraced := false
  cors? := some .any
  routes := routes
  freshId := fun n => if n = 0 then "f47ac10b-58cc-4372-a567-0e02b2c3d479".toList
    else "6ba7b810-9dad-41d1-80b4-00c04fd430c8".toList

/-- A page asks what requests are welcome.  The first id that it sends is no plain text. -/
def question : Web.Request :=
  ⟨"OPTIONS", "/products", [("X-Request-Id", [0xE9]), ("x-request-id", Utf8.ofString "b")], []⟩

/-- Products are asked for with two ids. -/
def listing : Web.Request :=
  ⟨"GET", "/products", [("x-request-id", Utf8.ofString "a\t1"), ("x-request-id", [0xE9])], []⟩

/-- While somebody waits for products in vain, a page asks what is welcome.  The one has sent an id
that is plain text, and the other is given a new one. -/
theorem Run.identified_question : ∃ moves w id id', labelling.isLayered = true ∧
    (∀ n, Web.IsUuid (labelling.freshId n)) ∧ Run labelling .initial moves w ∧
    requests moves = 1 ∧ Identified labelling [] .initial listing id ∧
    Utf8.encode id = Utf8.ofString "a\t1" ∧ Identified labelling moves w question id' ∧
    id' = "6ba7b810-9dad-41d1-80b4-00c04fd430c8".toList := by
  have uuids : ∀ n, Web.IsUuid (labelling.freshId n) := by
    intro n
    simp only [labelling]
    split <;> exact ⟨by decide, by decide, by decide, by decide, by decide⟩
  have act : World.initial.act? labelling (.enter (.request listing)) =
      some (World.initial.enter labelling (.request listing)) := rfl
  have run := Run.single act
  obtain ⟨id, identified⟩ := Run.identified rfl uuids .refl listing
  obtain ⟨id', identified'⟩ := run.identified rfl uuids question
  have first : Web.first? Web.idHeader listing.headers = some (Utf8.ofString "a\t1") := by
    decide +kernel
  have first' : Web.first? Web.idHeader question.headers = some [0xE9] := by decide +kernel
  refine ⟨_, _, id, id', rfl, uuids, run, rfl, identified,
    identified.sent _ first (by decide +kernel), identified', ?_⟩
  refine (identified'.made ?_).1
  intro value sent
  obtain rfl := Option.some.inj (first'.symm.trans sent)
  decide

end Service

end ProductSegments
