import ProductSegments.Proofs.Catalog.Exchange
import ProductSegments.Proofs.Product.Record

/-!
# Refusals of a product service

A product service answers by a record: whether it gives its products, which ones there are, and how
many.  The last two may be missing.  What the catalog gets of a body that has arrived is decided by
the whole record: the products, a refusal, or, unless all three members can be read, that nothing
could be decoded.

So a service that says that it refuses is not heard if it says something unexpected of the products
that it does not give.

## Main definitions

* `Catalog.ProductList.Says` — what the text of a record says.
* `Catalog.Source.SaysRefusal` — the text is an object that says that the service refuses.

## Main results

* `Catalog.ProductList.document_reader_iff` — the record is read from what the text says.
* `Catalog.Source.heard_iff_told` — **which bodies give products, refusals and neither**.
* `Catalog.Source.not_refusal_heard` — not every refusal is heard.
-/

namespace ProductSegments.Catalog

open Json (Tells Ignores Given AreFields Local Reads HasMember Padded ascii)
open Web (Network Url Ends)

namespace ProductList

/-! ### What a record says -/

/-- What the text of a record says: whether the service gives its products, which ones there are, and
how many.  The last two may be missing, and nobody looks at anything else. -/
def Says (t : List UInt8) (success : Bool) (products : List Product) (count : Nat) : Prop :=
  ∃ told, Tells members told t ∧ Ignores members told ∧
    Given Json.flag "success".toList told (some success) ∧
    (∃ data, Given (Json.array Product.reader) "data".toList told data ∧ data.getD [] = products) ∧
    ∃ number, Given Json.natural "count".toList told number ∧ number.getD 0 = count

/-- The fields of a draft. -/
def fields : List (Json.Field Draft) := [
  ⟨"success", Json.flag, (·.success), fun v d => { d with success := v }, false⟩,
  ⟨"data", Json.array Product.reader, (·.products), fun v d => { d with products := v }, true⟩,
  ⟨"count", Json.natural, (·.count), fun v d => { d with count := v }, true⟩]

theorem areFields : AreFields fields members ⟨none, none, none⟩ where
  members_eq := rfl
  isLocal := by
    simp only [fields, List.forall_mem_cons, List.not_mem_nil, false_imp_iff, implies_true, and_true]
    exact ⟨Json.local_flag, Json.local_array Product.local_reader, Json.local_natural⟩
  unset := by simp [fields]
  get_put := by simp [fields]
  apart := by simp [fields, Json.Field.Apart]

theorem Draft.ext_fields (d d' : Draft) (h : ∀ f ∈ fields, f.get d = f.get d') : d = d' := by
  simp only [fields, List.forall_mem_cons, List.not_mem_nil, false_imp_iff, implies_true,
    and_true] at h
  obtain ⟨success, products, count⟩ := d
  simp_all

/-- **The record is read from what its text says.** -/
theorem document_reader_iff {t : List UInt8} {l : ProductList} :
    Json.document reader t = .ok l ↔ Says t l.success l.products l.count := by
  have along {told : List Json.NamedText} {d : Draft} :
      Json.Along (Json.Takes members) _ told d ↔ _ := areFields.along_iff Draft.ext_fields
  simp only [fields, List.forall_mem_cons, List.not_mem_nil, false_imp_iff, implies_true,
    and_true] at along
  rw [reader, Json.document_record_iff areFields.lawful]
  simp only [along, Says]
  constructor
  · rintro ⟨told, tells, ⟨success, data, number⟩, ⟨ignores, given, data', number'⟩, finished⟩
    cases success with
    | none => cases finished
    | some success =>
      obtain rfl := Option.some.inj finished
      exact ⟨told, tells, ignores, given, ⟨data, data', rfl⟩, number, number', rfl⟩
  · rintro ⟨told, tells, ignores, success, ⟨data, data', eq⟩, number, number', eq'⟩
    refine ⟨told, tells, ⟨l.success, data, number⟩, ⟨ignores, success, data', number'⟩, ?_⟩
    simp [eq, eq']

/-- A record is read exactly if its text says something. -/
theorem exists_document_iff {t : List UInt8} {success : Bool} {products : List Product} :
    (∃ l, Json.document reader t = .ok l ∧ l.success = success ∧ l.products = products) ↔
      ∃ count, Says t success products count := by
  constructor
  · rintro ⟨l, read, rfl, rfl⟩
    exact ⟨l.count, document_reader_iff.mp read⟩
  · rintro ⟨count, said⟩
    exact ⟨⟨success, products, count⟩, document_reader_iff.mpr said, rfl, rfl⟩

end ProductList

namespace Source

/-- **Which bodies give products, refusals and neither.**  What the catalog gets once a body has
arrived in full, with the status of a success, is told by the whole record. -/
theorem heard_iff_told {baseUrl : String} {network : Network} {url last : Url} {n : Nat}
    {answer : Web.Answer} {body : List UInt8} (address : (productService baseUrl).address = .web url)
    (ends : Ends network url n last) (answered : network n last = .answered answer)
    (success : 200 ≤ answer.status ∧ answer.status < 300)
    (arrived : answer.arrival = .complete body) :
    let outcome := ((productService baseUrl).fetch network).2
    (∀ products, outcome = .ok products ↔ ∃ count, ProductList.Says body true products count) ∧
      (outcome = .error .rejected ↔ ∃ products count, ProductList.Says body false products count) ∧
      ((∃ reason, outcome = .error (.undecodable reason)) ↔
        ¬∃ given products count, ProductList.Says body given products count) := by
  intro outcome
  have read : outcome = (productService baseUrl).read body :=
    (account_fetch address ends).arrived answer body answered success arrived
  rw [read, Source.read]
  simp only [← ProductList.exists_document_iff]
  cases document : Json.document ProductList.reader body with
  | error fault => simp
  | ok list =>
    obtain ⟨given, products, count⟩ := list
    cases given <;> simp

/-- A service that says that it refuses, and why, is heard. -/
theorem heard_iff_told_refused :
    let body := Utf8.ofString "\x7b\"success\":false,\"error\":\"db down\"\x7d"
    let url : Url := ⟨false, "a".toList, none, ["products".toList], none⟩
    (productService "http://a").address = .web url ∧ Ends (uniform (.complete body)) url 0 url ∧
      ((productService "http://a").fetch (uniform (.complete body))).2 = .error .rejected := by
  intro body url
  have address : (productService "http://a").address = .web url := by decide +kernel
  have ends := ends_uniform (.complete body) url
  have read : (Json.document ProductList.reader body).toOption = some ⟨false, [], 0⟩ := by
    decide +kernel
  have said := ProductList.document_reader_iff.mp (eq_ok_of_toOption read)
  exact ⟨address, ends,
    (heard_iff_told address ends rfl ⟨by decide, by decide⟩ rfl).2.1.mpr ⟨_, _, said⟩⟩

/-- The text is an object that says that the service refuses, whatever else it says. -/
def SaysRefusal (body : List UInt8) : Prop :=
  ∃ flag, HasMember "success".toList flag body ∧ Padded (· = ascii "false") flag

/-- **Not every refusal is heard**: one that says that there are no products, by `null`, is not. -/
theorem not_refusal_heard : ¬∀ (baseUrl : String) (network : Network) (url last : Url) (n : Nat)
    (answer : Web.Answer) (body : List UInt8), (productService baseUrl).address = .web url →
    Ends network url n last → network n last = .answered answer →
    200 ≤ answer.status ∧ answer.status < 300 → answer.arrival = .complete body →
    SaysRefusal body → ((productService baseUrl).fetch network).2 = .error .rejected := by
  intro claim
  let body := Utf8.ofString "\x7b\"success\":false,\"data\":null\x7d"
  let url : Url := ⟨false, "a".toList, none, ["products".toList], none⟩
  have address : (productService "http://a").address = .web url := by decide +kernel
  have ends := ends_uniform (.complete body) url
  have refusal : SaysRefusal body := by
    -- the text is read as a record with that one member, and it is no list
    have read : (Json.document (Json.record [(Json.single "success" Json.flag).member] none id)
        body).toOption = some false := by decide +kernel
    obtain ⟨flag, object | list, read⟩ :=
      (Json.document_single_iff Json.local_flag).mp (eq_ok_of_toOption read)
    · exact ⟨flag, object, Json.document_flag_iff.mp read⟩
    · have brace : body = Json.byte '{' :: body.tail := by decide +kernel
      rw [brace] at list
      exact absurd (Json.opening_of_encloses list (by decide)) (by decide)
  have heard := claim "http://a" _ url url 0 ⟨200, none, .complete body⟩ body address ends rfl
    ⟨by decide, by decide⟩ rfl refusal
  have read := (account_fetch address ends).arrived _ body rfl ⟨by decide, by decide⟩ rfl
  rw [heard] at read
  exact absurd read (by decide +kernel)

end Source

end ProductSegments.Catalog
