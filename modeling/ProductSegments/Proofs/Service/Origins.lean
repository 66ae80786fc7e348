import ProductSegments.Proofs.Service.Sent
import ProductSegments.Proofs.Text

/-!
# Origins

Who may use the service is said by some entries: everybody if there are none or one of them is a
star, and else the origins that are among them.  Every response tells it to the page that asked.
Entries with a star that has blanks around it, and none without, are no policy at all.

## Main definitions

* `Web.Response.allowedOrigins` — the origins that a response allows.
* `Web.Cors.WelcomesAll`, `Web.Cors.welcome` — what some entries say of an origin.

## Main results

* `Web.Cors.ofEntries?_eq_none_iff` — when nothing can be made of some entries.
* `Web.Cors.toList_admits?` — what is made of some entries says of each origin what they say.
* `Service.origins_as_configured` — every response allows the origins that the entries welcome.
-/

namespace ProductSegments

namespace Web

/-! ### Entries -/

namespace Cors

/-- There are no entries, or one of them is a star, blanks at its ends aside. -/
def WelcomesAll (entries : List String) : Prop :=
  entries = [] ∨ ∃ e ∈ entries, Text.trim e.toList = ['*']

instance (entries : List String) : Decidable (WelcomesAll entries) :=
  inferInstanceAs (Decidable (_ ∨ _))

/-- What some entries say of an origin: all are welcome, or those that are one of the entries,
blanks at its ends aside.  What cannot stand in a header is no origin. -/
def welcome (entries : List String) (origin? : Option (List UInt8)) : List (List UInt8) :=
  if WelcomesAll entries then [star]
  else origin?.toList.filter fun origin =>
    origin.all isHeaderByte && entries.any fun e => Utf8.encode (Text.trim e.toList) = origin

theorem headerValue?_eq_some_iff {entry : String} {value : List UInt8} :
    headerValue? entry = some value ↔
      value.all isHeaderByte = true ∧ Utf8.encode (Text.trim entry.toList) = value := by
  unfold headerValue?
  dsimp only
  constructor
  · intro h
    split at h
    · next legal =>
      obtain rfl := Option.some.inj h
      exact ⟨legal, rfl⟩
    · cases h
  · rintro ⟨legal, rfl⟩
    exact if_pos legal

/-- Nothing but a star is written as one. -/
theorem encode_eq_star_iff {cs : List Char} : Utf8.encode cs = star ↔ cs = ['*'] := by
  have byte : star = UInt8.ofNat '*'.toNat :: [] := rfl
  rw [byte, Utf8.encode_eq_cons_iff (by decide)]
  constructor
  · rintro ⟨tail, rfl, empty⟩
    cases tail with
    | nil => rfl
    | cons c tail =>
      rw [Utf8.encode_cons] at empty
      rcases Utf8.utf8EncodeChar_cases c with ⟨-, one⟩ | ⟨-, b, others, more, -⟩
      · rw [one] at empty
        cases empty
      · rw [more] at empty
        cases empty
  · rintro rfl
    exact ⟨[], rfl, rfl⟩

theorem star_mem_iff {entries : List String} :
    star ∈ entries.filterMap headerValue? ↔ ∃ e ∈ entries, Text.trim e.toList = ['*'] := by
  have legal : star.all isHeaderByte = true := by decide
  simp only [List.mem_filterMap, headerValue?_eq_some_iff, encode_eq_star_iff, legal, true_and]

/-- What becomes of some entries: all origins are welcome, or the entries are listed, or nothing can
be made of them. -/
theorem ofEntries?_cases (entries : List String) :
    ((entries = [] ∨ "*" ∈ entries) ∧ ofEntries? entries = some .any) ∨
    (¬WelcomesAll entries ∧
      ofEntries? entries = some (.listed (entries.filterMap headerValue?))) ∨
    ("*" ∉ entries ∧ (∃ e ∈ entries, Text.trim e.toList = ['*']) ∧ ofEntries? entries = none) := by
  unfold ofEntries?
  dsimp only
  by_cases all : (entries.isEmpty || entries.contains "*") = true
  · left
    rw [if_pos all]
    exact ⟨(Bool.or_eq_true_iff.mp all).imp List.isEmpty_iff.mp List.contains_iff_mem.mp, rfl⟩
  · right
    rw [if_neg all]
    have noRaw : "*" ∉ entries := fun h =>
      all (Bool.or_eq_true_iff.mpr (.inr (List.contains_iff_mem.mpr h)))
    have some : entries ≠ [] := fun h =>
      all (Bool.or_eq_true_iff.mpr (.inl (List.isEmpty_iff.mpr h)))
    by_cases padded : ∃ e ∈ entries, Text.trim e.toList = ['*']
    · exact .inr ⟨noRaw, padded, if_pos (List.contains_iff_mem.mpr (star_mem_iff.mpr padded))⟩
    · refine .inl ⟨fun h => h.elim some padded, if_neg ?_⟩
      exact fun h => padded (star_mem_iff.mp (List.contains_iff_mem.mp h))

/-- **When nothing can be made of some entries**: one is a star with blanks around it, and none is a
star without. -/
theorem ofEntries?_eq_none_iff {entries : List String} : ofEntries? entries = none ↔
    "*" ∉ entries ∧ ∃ e ∈ entries, Text.trim e.toList = ['*'] := by
  rcases ofEntries?_cases entries with ⟨all, made⟩ | ⟨some, made⟩ | ⟨noRaw, padded, made⟩
  · refine iff_of_false (by simp [made]) ?_
    rintro ⟨noRaw, e, member, -⟩
    rcases all with rfl | raw
    · cases member
    · exact noRaw raw
  · exact iff_of_false (by simp [made]) fun h => some (.inr h.2)
  · exact iff_of_true made ⟨noRaw, padded⟩

theorem contains_filterMap {entries : List String} (origin : List UInt8) :
    (entries.filterMap headerValue?).contains origin = (origin.all isHeaderByte &&
      entries.any fun e => Utf8.encode (Text.trim e.toList) = origin) := by
  rw [Bool.eq_iff_iff, List.contains_iff_mem, Bool.and_eq_true_iff, List.any_eq_true,
    List.mem_filterMap]
  simp only [headerValue?_eq_some_iff, decide_eq_true_eq]
  constructor
  · rintro ⟨e, member, legal, same⟩
    exact ⟨legal, e, member, same⟩
  · rintro ⟨legal, e, member, same⟩
    exact ⟨e, member, legal, same⟩

/-- **What is made of some entries says of each origin what they say.** -/
theorem toList_admits? {entries : List String} {cors : Cors} (h : ofEntries? entries = some cors)
    (origin? : Option (List UInt8)) : (cors.admits? origin?).toList = welcome entries origin? := by
  rcases ofEntries?_cases entries with ⟨all, made⟩ | ⟨some, made⟩ | ⟨-, -, made⟩
  · obtain rfl := Option.some.inj (made.symm.trans h)
    have star : WelcomesAll entries := all.imp_right fun raw => ⟨"*", raw, by decide⟩
    rw [welcome, if_pos star]
    rfl
  · obtain rfl := Option.some.inj (made.symm.trans h)
    rw [welcome, if_neg some, admits?]
    cases origin? with
    | none => rfl
    | some origin =>
      simp only [Option.filter_some, Option.toList_some, List.filter_cons, contains_filterMap]
      split <;> rfl
  · rw [made] at h
    cases h

end Cors

/-! ### Headers -/

/-- The origins that some headers allow. -/
def allowedOrigins (headers : Headers) : List (List UInt8) :=
  (headers.filter fun header => header.1 = "access-control-allow-origin").map Prod.snd

theorem allowedOrigins_append (headers headers' : Headers) :
    allowedOrigins (headers ++ headers') = allowedOrigins headers ++ allowedOrigins headers' := by
  simp only [allowedOrigins, List.filter_append, List.map_append]

theorem allowedOrigins_cons_of_ne {name : String} (other : name ≠ "access-control-allow-origin")
    (value : List UInt8) (headers : Headers) :
    allowedOrigins ((name, value) :: headers) = allowedOrigins headers := by
  rw [allowedOrigins, List.filter_cons_of_neg (by simpa using other)]
  rfl

theorem allowedOrigins_map (origins : List (List UInt8)) : allowedOrigins
    (origins.map fun origin => ("access-control-allow-origin", origin)) = origins := by
  induction origins with
  | nil => rfl
  | cons origin origins ih =>
    rw [List.map_cons, allowedOrigins, List.filter_cons_of_pos (by simp), List.map_cons]
    exact congrArg _ ih

/-- The id of a request is no origin. -/
theorem allowedOrigins_withId (id : List Char) (r : Response) :
    allowedOrigins (r.withId id).headers = allowedOrigins r.headers := by
  have lower : "access-control-allow-origin".toLower ≠ idHeader := by decide +kernel
  have other : idHeader ≠ "access-control-allow-origin" := by decide
  have kept : ∀ header : String × List UInt8,
      (decide (header.1 = "access-control-allow-origin") && decide (header.1.toLower ≠ idHeader)) =
        decide (header.1 = "access-control-allow-origin") := by
    rintro ⟨name, value⟩
    by_cases same : name = "access-control-allow-origin"
    · simp [same, lower]
    · simp [same]
  rw [Response.withId, replace, allowedOrigins_append, allowedOrigins_cons_of_ne other,
    allowedOrigins, List.filter_filter, funext kept]
  exact List.append_nil _

theorem allowedOrigins_mark (c : Cors) (request : Request) (r : Response) :
    allowedOrigins (c.mark request r).headers =
      allowedOrigins r.headers ++ (c.admits? (first? "origin" request.headers)).toList := by
  rw [Cors.mark, allowedOrigins_append, allowedOrigins_cons_of_ne (by decide), allowedOrigins_map]

end Web

namespace Service

variable {setting : Setting} {w : World} {action : Action} {moves : List Move}

/-! ### Drafts -/

/-- A response about a document says nothing of origins. -/
theorem allowedOrigins_of (status : Nat) (type : String) (body : List Char) :
    Web.allowedOrigins (Web.Response.of status type body).headers = [] :=
  Web.allowedOrigins_cons_of_ne (by decide) _ _

theorem allowedOrigins_turnAway (e : Endpoint) (r : Web.Response) :
    Web.allowedOrigins (e.turnAway r).headers = Web.allowedOrigins r.headers :=
  Web.allowedOrigins_cons_of_ne (by decide) _ _

theorem allowedOrigins_response (order : Order) (traced : Bool) (outcome : Catalog.Outcome) :
    Web.allowedOrigins (order.response traced outcome).headers = [] := by
  match order, outcome with
  | .evaluate _, .ok _ | .list, .ok _ | .refresh, .ok _ => exact allowedOrigins_of ..
  | .evaluate _, .error _ | .list, .error _ | .refresh, .error _ => exact allowedOrigins_of ..

theorem Immediate.allowedOrigins {response : Web.Response} (h : Immediate response) :
    Web.allowedOrigins response.headers = [] := by
  have preflight : Web.allowedOrigins Web.Cors.preflight.headers = [] := by decide
  cases h with
  | unknown => rfl
  | unwelcome endpoint => exact allowedOrigins_turnAway endpoint _
  | refused details => exact allowedOrigins_of ..
  | told type body => exact allowedOrigins_of ..
  | preflight => exact preflight
  | preflightAt endpoint => exact (allowedOrigins_turnAway endpoint _).trans preflight

/-- No response says anything of origins before it goes out. -/
theorem World.allowedOrigins_draft? {d : Draft} (h : w.draft? setting action = some d) :
    Web.allowedOrigins d.response.headers = [] := by
  rcases w.draft?_cases h with ⟨-, planned⟩ | ⟨client, order, outcome, -, response⟩
  · exact (immediate_of_setting planned).allowedOrigins
  · rw [response]
    exact allowedOrigins_response ..

/-- And then it says what is said to the request. -/
theorem Draft.allowedOrigins_sent {d : Draft} (none : Web.allowedOrigins d.response.headers = [])
    {cors : Web.Cors} (looked : setting.cors? = some cors) :
    Web.allowedOrigins (d.sent setting).headers =
      (cors.admits? (Web.first? "origin" d.request.headers)).toList := by
  have head : (headOnly d.request d.response).headers = d.response.headers := by
    unfold headOnly
    split <;> rfl
  have marked : Web.allowedOrigins (cors.mark d.request (headOnly d.request d.response)).headers =
      (cors.admits? (Web.first? "origin" d.request.headers)).toList := by
    rw [Web.allowedOrigins_mark, head, none, List.nil_append]
  unfold sent
  rw [looked]
  dsimp only [Option.elim_some]
  split
  · exact (Web.allowedOrigins_withId ..).trans marked
  · exact marked

/-! ### Runs -/

/-- **Every response allows the origins that the entries welcome**, whatever is asked for and
however the service goes on.  It starts with all entries but those that have a star with blanks
around it and none without. -/
theorem origins_as_configured (entries : List String) :
    (Web.Cors.ofEntries? entries = none ↔
      "*" ∉ entries ∧ ∃ e ∈ entries, Text.trim e.toList = ['*']) ∧
    ∀ {cors : Web.Cors} {setting : Setting} {moves : List Move} {w : World},
      Web.Cors.ofEntries? entries = some cors → setting.cors? = some cors →
      Run setting .initial moves w → ∀ m ∈ moves, ∀ request response,
        m.served? = some (request, response) →
        Web.allowedOrigins response.headers =
          Web.Cors.welcome entries (Web.first? "origin" request.headers) := by
  refine ⟨Web.Cors.ofEntries?_eq_none_iff, ?_⟩
  intro cors setting moves w made looked run m hm request response served
  obtain ⟨-, -, -, -, act, -⟩ := run.of_mem hm
  rw [Move.served?_of_act? act] at served
  obtain ⟨d, drafted, eq⟩ := Option.map_eq_some_iff.mp served
  obtain ⟨rfl, rfl⟩ := Prod.mk.inj eq
  rw [Draft.allowedOrigins_sent (World.allowedOrigins_draft? drafted) looked,
    Web.Cors.toList_admits? made]

/-- A service that tells of origins. -/
def guarded (cors : Web.Cors) : Setting :=
  { Setting.cached ⟨fun _ => ⟨.ok [], 0⟩, .standard⟩ with cors? := some cors }

/-- A page asks whether the service is well. -/
def page : Web.Request :=
  ⟨"GET", "/health", [("Origin", Utf8.ofString "https://shop.example")], []⟩

/-- Of two entries one has a blank at its end and the other cannot stand in a header.  The page of
the first is welcome. -/
theorem origins_as_configured_page : ∃ cors moves w m response,
    Web.Cors.ofEntries? ["https://shop.example ", "\x01"] = some cors ∧
    (guarded cors).cors? = some cors ∧ Run (guarded cors) .initial moves w ∧ m ∈ moves ∧
    m.served? = some (page, response) ∧
    Web.allowedOrigins response.headers = [Utf8.ofString "https://shop.example"] ∧
    Web.allowedOrigins response.headers = Web.Cors.welcome ["https://shop.example ", "\x01"]
      (Web.first? "origin" page.headers) := by
  let cors : Web.Cors := .listed [Utf8.ofString "https://shop.example"]
  have made : Web.Cors.ofEntries? ["https://shop.example ", "\x01"] = some cors := by decide +kernel
  have act : World.initial.act? (guarded cors) (.enter (.request page)) =
      some (World.initial.enter (guarded cors) (.request page)) := rfl
  have seen : (Move.served? ⟨.initial, .enter (.request page),
      World.initial.enter (guarded cors) (.request page)⟩).any (fun (request, response) =>
        request = page ∧
        Web.allowedOrigins response.headers = [Utf8.ofString "https://shop.example"]) = true := by
    decide +kernel
  obtain ⟨⟨request, response⟩, served, told⟩ := (Option.any_eq_true ..).mp seen
  obtain ⟨rfl, welcome⟩ := of_decide_eq_true told
  exact ⟨cors, _, _, _, response, made, rfl, .single act, List.mem_cons_self, served, welcome,
    (origins_as_configured _).2 made rfl (.single act) _ List.mem_cons_self _ _ served⟩

/-- **Not all entries are a policy**: a star with a blank in front is none. -/
theorem entries_not_always_policy :
    ¬∀ entries, (Web.Cors.ofEntries? entries).isSome = true := by
  intro all
  have none : Web.Cors.ofEntries? [" *"] = none := by decide +kernel
  have made := all [" *"]
  rw [none] at made
  cases made

end Service

end ProductSegments
