import ProductSegments.Catalog.Price
import ProductSegments.Product.Document

/-!
# Shop records

A shop describes its products by records of its own: prices are text, categories and tags are
records with names, and dates may lack an offset.

## Main definitions

* `Catalog.Shop.Record` — what a shop tells of a product.
* `Catalog.Shop.Record.reader` — the reader of a record; only number and name cannot be missing.
* `Catalog.Shop.Record.product` — the product that a record describes.
-/

namespace ProductSegments.Catalog.Shop

/-- What a shop tells of a product. -/
structure Record where
  id : Int64
  name : String
  price : Option String
  stockStatus : String
  stockQuantity : Option Int64
  /-- The names of the categories, the main one first. -/
  categories : List String
  /-- The names of the tags. -/
  tags : List String
  onSale : Bool
  created : Option String
  modified : Option String
  deriving DecidableEq

namespace Record

/-! ### The product of a record -/

/-- The category of a product that has none. -/
def noCategory : String := "Uncategorized"

/-- The point in time that a date stands for: with an offset, else as UTC. -/
def instant? (date : String) : Option Instant :=
  Timestamp.strict? date.toList <|> Timestamp.plain? date.toList

/-- The product that a record describes.  What was never modified was last updated when it was
created. -/
def product (r : Record) : Product :=
  let created := r.created.bind instant?
  { id := r.id
    title := r.name
    price := r.price.elim .zero fun text => Price.ofText text.toList
    stockStatus := r.stockStatus
    stockQuantity := r.stockQuantity
    category := r.categories.head?.getD noCategory
    tags := r.tags
    onSale := r.onSale
    createdAt := created
    updatedAt := r.modified.bind instant? <|> created }

theorem isFinite_price_product (r : Record) : r.product.price.isFinite = true := by
  unfold product
  cases r.price with
  | none => rfl
  | some text => exact Price.isFinite_ofText text.toList

/-! ### Reading -/

/-- The name in the record of a category or a tag. -/
def termReader : Json.Reader String :=
  Json.record [.of "name" Product.textReader (fun name => name) (fun v _ => some v) false] none
    fun name => name

/-- The members of a record that have been read. -/
structure Draft where
  id : Option Int64
  name : Option String
  price : Option (Option String)
  stockStatus : Option String
  stockQuantity : Option (Option Int64)
  categories : Option (List String)
  tags : Option (List String)
  onSale : Option Bool
  created : Option (Option String)
  modified : Option (Option String)

/-- No member has been read. -/
def Draft.empty : Draft := ⟨none, none, none, none, none, none, none, none, none, none⟩

/-- The record with the members that have been read. -/
def Draft.record? (d : Draft) : Option Record := do
  return {
    id := ← d.id
    name := ← d.name
    price := d.price.getD none
    stockStatus := d.stockStatus.getD ""
    stockQuantity := d.stockQuantity.getD none
    categories := d.categories.getD []
    tags := d.tags.getD []
    onSale := d.onSale.getD false
    created := d.created.getD none
    modified := d.modified.getD none }

/-- The members of a record. -/
def members : List (Json.Member Draft) := [
  .of "id" Json.integer (·.id) (fun v d => { d with id := v }) false,
  .of "name" Product.textReader (·.name) (fun v d => { d with name := v }) false,
  .of "price" (Json.optional Product.textReader) (·.price) (fun v d => { d with price := some v }) true,
  .of "stock_status" Product.textReader (·.stockStatus)
    (fun v d => { d with stockStatus := v }) true,
  .of "stock_quantity" (Json.optional Json.integer) (·.stockQuantity)
    (fun v d => { d with stockQuantity := some v }) true,
  .of "categories" (Json.array termReader) (·.categories)
    (fun v d => { d with categories := v }) true,
  .of "tags" (Json.array termReader) (·.tags) (fun v d => { d with tags := v }) true,
  .of "on_sale" Json.flag (·.onSale) (fun v d => { d with onSale := v }) true,
  .of "date_created" (Json.optional Product.textReader) (·.created)
    (fun v d => { d with created := some v }) true,
  .of "date_modified" (Json.optional Product.textReader) (·.modified)
    (fun v d => { d with modified := some v }) true]

/-- A record. -/
def reader : Json.Reader Record := Json.record members Draft.empty Draft.record?

end Record

/-- The records that a document lists. -/
def records? (document : List UInt8) : Except Json.Fault (List Record) :=
  Json.document (Json.array Record.reader) document

end ProductSegments.Catalog.Shop
