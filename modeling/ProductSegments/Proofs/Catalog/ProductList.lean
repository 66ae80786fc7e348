import ProductSegments.Proofs.Calendar.Timestamp
import ProductSegments.Proofs.Catalog.Exchange
import ProductSegments.Proofs.Json.Survival
import ProductSegments.Service.Route

/-!
# Product lists travel unchanged

Every list of products is read back from its written form, in the same order and with nothing lost, if
each price is read back from its own written form.  So one service can be the product service of
another one.  All but huge prices in whole cents are such prices (`Json.survives_hundredths`).  Sources
give no price that cannot be written, though they may give one that comes back as its neighbour.

## Main results

* `Product.readsBack_chars` — a product is read back if its price is.
* `Catalog.ProductList.readsBack_chars` — so is a list of such products.
* `Catalog.Source.isFinite_price_of_read` — whatever the body is, the prices that a source reads from
  it are finite.
* `Catalog.ProductList.travels` — **lists of products travel unchanged** from service to service.
-/

namespace ProductSegments

open Json (ReadsBack Fills Kind)

/-! ### Products -/

namespace Product

/-- A text is read back as a text. -/
theorem readsBack_text (text : String) :
    ReadsBack .string textReader (Json.Writer.string text) text :=
  (Json.readsBack_string text).refine (by simp)

/-- Characters that need no escape are written as they are. -/
theorem flatMap_escape {cs : List Char} (h : ∀ c ∈ cs, Json.Writer.escape c = [c]) :
    cs.flatMap Json.Writer.escape = cs := by
  induction cs with
  | nil => rfl
  | cons c cs ih =>
    rw [List.flatMap_cons, h c List.mem_cons_self,
      ih fun d hd => h d (List.mem_cons_of_mem c hd), List.singleton_append]

/-- A date is read back as a date. -/
theorem readsBack_date (t : Instant) :
    ReadsBack .string dateReader ('"' :: (t.chars ++ ['"'])) t := by
  have plain : ∀ c ∈ t.chars, Json.Writer.escape c = [c] := fun c hc =>
    Text.forall_mem (P := fun c => Json.Writer.escape c = [c]) (by decide) c
      (t.mem_alphabet_chars c hc)
  have written : '"' :: (t.chars ++ ['"']) = Json.Writer.string (String.ofList t.chars) := by
    rw [Json.Writer.string, String.toList_ofList, flatMap_escape plain]
  rw [written]
  refine (Json.readsBack_string _).refine ?_
  rw [String.toList_ofList]
  exact Timestamp.lenient?_chars t

/-- The draft with all members of a product. -/
def Draft.of (p : Product) : Draft where
  id := some p.id
  title := some p.title
  price := some p.price
  stockStatus := some p.stockStatus
  stockQuantity := some p.stockQuantity
  category := some p.category
  tags := some p.tags
  onSale := some p.onSale
  createdAt := some p.createdAt
  updatedAt := some p.updatedAt

theorem Draft.product?_of (p : Product) : (Draft.of p).product? = some p := rfl

/-- **A product is read back if its price is.** -/
theorem readsBack_chars {p : Product} (survives : Json.Survives p.price) :
    ReadsBack .object reader p.chars p := by
  obtain ⟨_, quantity⟩ := Json.exists_readsBack_optional (by decide : Kind.number ≠ .null)
    p.stockQuantity fun q _ => Json.readsBack_integer q
  obtain ⟨_, created⟩ := Json.exists_readsBack_optional (by decide : Kind.string ≠ .null)
    p.createdAt fun t _ => readsBack_date t
  obtain ⟨_, updated⟩ := Json.exists_readsBack_optional (by decide : Kind.string ≠ .null)
    p.updatedAt fun t _ => readsBack_date t
  have tags : ReadsBack .array (Json.array textReader)
      (Json.Writer.array (p.tags.map Json.Writer.string)) p.tags :=
    Json.readsBack_array fun tag _ => ⟨.string, readsBack_text tag⟩
  refine Json.readsBack_record (?_ : Fills members Draft.empty _ (Draft.of p)) (Draft.product?_of p)
  -- one step for each member, in the order in which they are written
  refine .one rfl rfl ((Json.readsBack_integer p.id).member ..) ?_
  refine .one rfl rfl ((readsBack_text p.title).member ..) ?_
  refine .one rfl rfl ((Json.readsBack_number survives).member ..) ?_
  refine .one rfl rfl ((readsBack_text p.stockStatus).member ..) ?_
  refine .one rfl rfl (quantity.member ..) ?_
  refine .one rfl rfl ((readsBack_text p.category).member ..) ?_
  refine .one rfl rfl (tags.member ..) ?_
  refine .one rfl rfl ((Json.readsBack_flag p.onSale).member ..) ?_
  refine .one rfl rfl (created.member ..) ?_
  exact .one rfl rfl (updated.member ..) .none

/-! ### Prices that are read -/

/-- The price of a draft is finite, if it has been read. -/
def Draft.IsFinite (d : Draft) : Prop := ∀ x ∈ d.price, x.isFinite = true

theorem Draft.isFinite_empty : Draft.empty.IsFinite := fun x h => absurd h (Option.not_mem_none x)

/-- Whatever is read, only the price can change whether the price is finite. -/
theorem Draft.keeps_isFinite : ∀ member ∈ members, Json.Keeps Draft.IsFinite member := by
  have price : ∀ (x : Binary64) (d : Draft), x.isFinite = true → d.IsFinite →
      { d with price := some x }.IsFinite := by
    intro x d finite _ y hy
    obtain rfl := Option.some.inj hy
    exact finite
  refine List.forall_mem_cons.mpr ⟨Json.keeps_of_frame _ _ _ _ fun _ _ h => h, ?_⟩
  refine List.forall_mem_cons.mpr ⟨Json.keeps_of_frame _ _ _ _ fun _ _ h => h, ?_⟩
  refine List.forall_mem_cons.mpr ⟨Json.keeps_of Json.yields_number _ _ _ price, ?_⟩
  refine List.forall_mem_cons.mpr ⟨Json.keeps_of_frame _ _ _ _ fun _ _ h => h, ?_⟩
  refine List.forall_mem_cons.mpr ⟨Json.keeps_of_frame _ _ _ _ fun _ _ h => h, ?_⟩
  refine List.forall_mem_cons.mpr ⟨Json.keeps_of_frame _ _ _ _ fun _ _ h => h, ?_⟩
  refine List.forall_mem_cons.mpr ⟨Json.keeps_of_frame _ _ _ _ fun _ _ h => h, ?_⟩
  refine List.forall_mem_cons.mpr ⟨Json.keeps_of_frame _ _ _ _ fun _ _ h => h, ?_⟩
  refine List.forall_mem_cons.mpr ⟨Json.keeps_of_frame _ _ _ _ fun _ _ h => h, ?_⟩
  exact List.forall_mem_singleton.mpr (Json.keeps_of_frame _ _ _ _ fun _ _ h => h)

/-- **A product that is read has a finite price.** -/
theorem yields_reader : Json.Yields reader fun p => p.price.isFinite = true := by
  refine Json.yields_record Draft.keeps_isFinite Draft.isFinite_empty fun draft p finite hp => ?_
  have price : draft.price = some p.price := by
    simp only [Draft.product?, Option.bind_eq_bind, Option.bind_eq_some_iff, Option.pure_def,
      Option.some.injEq] at hp
    obtain ⟨_, _, _, _, _, hprice, _, _, _, _, _, _, rfl⟩ := hp
    exact hprice
  exact finite _ price

end Product

namespace Catalog

/-! ### Lists of products -/

namespace ProductList

/-- **A list of products is read back if their prices are**, and if it is not longer than a count can
tell. -/
theorem readsBack_chars {products : List Product} (survive : ∀ p ∈ products, Json.Survives p.price)
    (fits : products.length < UInt64.size) :
    ReadsBack .object reader (ProductList.of products).chars (.of products) := by
  have data : ReadsBack .array (Json.array Product.reader)
      (Json.Writer.array (products.map Product.chars)) products :=
    Json.readsBack_array fun p hp => ⟨.object, Product.readsBack_chars (survive p hp)⟩
  refine Json.readsBack_record
    (?_ : Fills members _ _ ⟨some true, some products, some products.length⟩) rfl
  refine .one rfl rfl ((Json.readsBack_flag true).member ..) ?_
  refine .one rfl rfl (data.member ..) ?_
  exact .one rfl rfl ((Json.readsBack_natural fits).member ..) .none

/-- The products of a draft have finite prices. -/
def Draft.IsFinite (d : Draft) : Prop := ∀ ps ∈ d.products, ∀ p ∈ ps, p.price.isFinite = true

/-- **The products of a list that is read have finite prices.** -/
theorem yields_reader :
    Json.Yields reader fun list => ∀ p ∈ list.products, p.price.isFinite = true := by
  have data : ∀ (ps : List Product) (d : Draft), (∀ p ∈ ps, p.price.isFinite = true) → d.IsFinite →
      { d with products := some ps }.IsFinite := by
    intro ps d finite _ qs hqs
    obtain rfl := Option.some.inj hqs
    exact finite
  have keeps : ∀ member ∈ members, Json.Keeps Draft.IsFinite member := by
    refine List.forall_mem_cons.mpr ⟨Json.keeps_of_frame _ _ _ _ fun _ _ h => h, ?_⟩
    refine List.forall_mem_cons.mpr
      ⟨Json.keeps_of (Json.yields_array Product.yields_reader) _ _ _ data, ?_⟩
    exact List.forall_mem_singleton.mpr (Json.keeps_of_frame _ _ _ _ fun _ _ h => h)
  have empty : Draft.IsFinite ⟨none, none, none⟩ := fun ps h => absurd h (Option.not_mem_none ps)
  refine Json.yields_record keeps empty fun draft list finite hlist => ?_
  simp only [Option.bind_eq_bind, Option.bind_eq_some_iff, Option.pure_def,
    Option.some.injEq] at hlist
  obtain ⟨_, -, rfl⟩ := hlist
  show ∀ p ∈ draft.products.getD [], p.price.isFinite = true
  cases h : draft.products with
  | none => exact List.forall_mem_nil _
  | some ps => exact finite ps h

end ProductList

namespace Source

/-- **The prices that a source reads are finite**, whatever the body is. -/
theorem isFinite_price_of_read {source : Source} {body : List UInt8} {products : List Product}
    (h : source.read body = .ok products) : ∀ p ∈ products, p.price.isFinite = true := by
  cases source with
  | productService _ =>
    unfold read at h
    dsimp only at h
    split at h
    · next list read =>
      split at h
      · obtain rfl := Except.ok.inj h
        exact ProductList.yields_reader.document read
      · cases h
    · cases h
  | shop =>
    unfold read at h
    dsimp only at h
    split at h
    · next records _ =>
      obtain rfl := Except.ok.inj h
      intro p hp
      obtain ⟨record, -, rfl⟩ := List.mem_map.mp hp
      exact record.isFinite_price_product
    · cases h

/-- Products that are fetched have been read from a body. -/
theorem exists_read_of_fetch {source : Source} {network : Web.Network} {products : List Product}
    (h : (source.fetch network).2 = .ok products) : ∃ body, source.read body = .ok products := by
  have h : source.outcome (Web.get network source.address).result = .ok products := h
  unfold outcome at h
  split at h
  · cases h
  · cases h
  · cases h
  · cases h
  · split at h
    · cases h
    · split at h
      · exact ⟨_, h⟩
      · cases h
      · cases h

end Source

namespace ProductList

/-- **Lists of products travel unchanged.**  Whatever the network does, sources give products with
finite prices only.  The service lists products whose prices survive on their own, whatever else they
hold, as a document from which a product service's list is read: with the mark of success, their
count and the same products in the same order. -/
theorem travels :
    (∀ (source : Source) (network : Web.Network) (products : List Product),
      (source.fetch network).2 = .ok products → ∀ p ∈ products, p.price.isFinite = true) ∧
    ∀ products : List Product, (∀ p ∈ products, Json.Survives p.price) →
      products.length < UInt64.size → ∀ traced,
        let response := Service.Order.list.response traced (.ok products)
        response.status = 200 ∧
        Json.document reader (Utf8.encode response.body) = .ok ⟨true, products, products.length⟩ ∧
        ∀ baseUrl, (Source.productService baseUrl).read (Utf8.encode response.body) = .ok products := by
  constructor
  · intro source network products fetched
    obtain ⟨body, read⟩ := Source.exists_read_of_fetch fetched
    exact Source.isFinite_price_of_read read
  · intro products survive fits traced response
    have document : Json.document reader (Utf8.encode response.body) = .ok (.of products) :=
      (readsBack_chars survive fits).document
    refine ⟨rfl, document, fun baseUrl => ?_⟩
    rw [Source.read, document]
    rfl

/-- A product with a price in cents and a title that needs escapes, created in a leap second before
the year zero, goes from a service to another one. -/
theorem travels_leap_second :
    let created : Instant := ⟨⟨-1, 12, 31, by decide, by decide⟩, 86399, 1500000000, by decide,
      by decide⟩
    let p : Product := ⟨-7, "\"Café\" ☕\n", .ofRatio false 1999 100, "instock", none, "Kitchen",
      ["", "a\\b"], true, some created, none⟩
    let body := Utf8.encode (Service.Order.list.response false (.ok [p])).body
    let source := Source.productService "http://a"
    Json.Survives p.price ∧ [p].length < UInt64.size ∧
      Json.document reader body = .ok ⟨true, [p], 1⟩ ∧
      (source.fetch (Source.uniform (.complete body))).2 = .ok [p] ∧
      ∀ q ∈ [p], q.price.isFinite = true := by
  intro created p body source
  obtain ⟨fromSources, fromServices⟩ := travels
  have small : 1999 < tenPow 15 := by decide
  have survives : Json.Survives p.price := by
    dsimp only [p]
    exact Json.survives_hundredths false small
  obtain ⟨-, document, read⟩ :=
    fromServices [p] (List.forall_mem_singleton.mpr survives) (by decide) false
  have address : source.address = .web ⟨false, "a".toList, none, ["products".toList], none⟩ := by
    decide +kernel
  have account := Source.account_fetch address (Source.ends_uniform (.complete body) _)
  have fetched : (source.fetch (Source.uniform (.complete body))).2 = .ok [p] :=
    (account.arrived _ body rfl ⟨by decide, by decide⟩ rfl).trans (read "http://a")
  exact ⟨survives, by decide, document, fetched, fromSources _ _ _ fetched⟩

end ProductList

end Catalog

end ProductSegments
