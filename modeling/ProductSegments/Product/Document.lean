import ProductSegments.Calendar.Timestamp
import ProductSegments.Json.Record
import ProductSegments.Json.Writer
import ProductSegments.Product.Basic

/-!
# Product records

Products travel as JSON records.

## Main definitions

* `Product.chars` — the record of a product.
* `Product.reader` — the reader of such a record; tags and dates may be missing.
-/

namespace ProductSegments.Product

/-- The record of a product. -/
def chars (p : Product) : List Char :=
  let date (t : Instant) := '"' :: (t.chars ++ ['"'])
  Json.Writer.object [
    ("id", Json.Writer.integer p.id.toInt),
    ("title", Json.Writer.string p.title),
    ("price", Json.Writer.number p.price),
    ("stock_status", Json.Writer.string p.stockStatus),
    ("stock_quantity", Json.Writer.optional (Json.Writer.integer ·.toInt) p.stockQuantity),
    ("category", Json.Writer.string p.category),
    ("tags", Json.Writer.array (p.tags.map Json.Writer.string)),
    ("on_sale", Json.Writer.flag p.onSale),
    ("created_at", Json.Writer.optional date p.createdAt),
    ("updated_at", Json.Writer.optional date p.updatedAt)]

/-- The members of a product that have been read. -/
structure Draft where
  id : Option Int64
  title : Option String
  price : Option Binary64
  stockStatus : Option String
  stockQuantity : Option (Option Int64)
  category : Option String
  tags : Option (List String)
  onSale : Option Bool
  createdAt : Option (Option Instant)
  updatedAt : Option (Option Instant)

/-- No member has been read. -/
def Draft.empty : Draft := ⟨none, none, none, none, none, none, none, none, none, none⟩

/-- The product with the members that have been read.  Quantity, tags and dates may be missing. -/
def Draft.product? (d : Draft) : Option Product := do
  return {
    id := ← d.id
    title := ← d.title
    price := ← d.price
    stockStatus := ← d.stockStatus
    stockQuantity := d.stockQuantity.getD none
    category := ← d.category
    tags := d.tags.getD []
    onSale := ← d.onSale
    createdAt := d.createdAt.getD none
    updatedAt := d.updatedAt.getD none }

/-- A string. -/
def textReader : Json.Reader String := Json.refine (some ∘ String.ofList) Json.string

/-- A point in time in the lenient form. -/
def dateReader : Json.Reader Instant := Json.refine Timestamp.lenient? Json.string

/-- The members of a product record.  A list may leave out tags and dates, but not the quantity.  One
that is `null` has been written and cannot be written again. -/
def members : List (Json.Member Draft) := [
  .of "id" Json.integer (·.id) (fun v d => { d with id := v }) false,
  .of "title" textReader (·.title) (fun v d => { d with title := v }) false,
  .of "price" Json.number (·.price) (fun v d => { d with price := v }) false,
  .of "stock_status" textReader (·.stockStatus) (fun v d => { d with stockStatus := v }) false,
  .of "stock_quantity" (Json.optional Json.integer) (·.stockQuantity)
    (fun v d => { d with stockQuantity := some v }) false,
  .of "category" textReader (·.category) (fun v d => { d with category := v }) false,
  .of "tags" (Json.array textReader) (·.tags) (fun v d => { d with tags := v }) true,
  .of "on_sale" Json.flag (·.onSale) (fun v d => { d with onSale := v }) false,
  .of "created_at" (Json.optional dateReader) (·.createdAt)
    (fun v d => { d with createdAt := some v }) true,
  .of "updated_at" (Json.optional dateReader) (·.updatedAt)
    (fun v d => { d with updatedAt := some v }) true]

/-- A product record. -/
def reader : Json.Reader Product := Json.record members Draft.empty Draft.product?

/-- The product whose record a document holds. -/
def ofDocument? (s : List UInt8) : Except Json.Fault Product := Json.document reader s

end ProductSegments.Product
