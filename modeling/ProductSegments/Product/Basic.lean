import ProductSegments.Calendar.Instant
import ProductSegments.Number.Layout

/-!
# Products

A product as the catalog lists it, and the fields of it that a rule can name.

## Main definitions

* `Product` — a product of the catalog.
* `Field` — the names that may stand first in a rule.
* `Value` — what a field holds; `Value.text` is how it reads as text.
* `Product.value?` — the value of a field of a product.
-/

namespace ProductSegments

/-- A product of the catalog. -/
structure Product where
  id : Int64
  title : String
  price : Binary64
  stockStatus : String
  /-- The quantity in stock, if the catalog counts it. -/
  stockQuantity : Option Int64
  category : String
  tags : List String
  onSale : Bool
  /-- Missing unless the catalog gives it. -/
  createdAt : Option Instant
  updatedAt : Option Instant
  deriving DecidableEq

/-- A field that a rule can name; every other name is `unknown`. -/
inductive Field where
  | price
  | stockQuantity
  | onSale
  | stockStatus
  | category
  | tags
  | title
  | unknown
  deriving DecidableEq, Repr

namespace Field

/-- The fields that rules may use. -/
def allowed : List Field :=
  [.price, .stockQuantity, .onSale, .stockStatus, .category, .tags, .title]

/-- The name of a field. -/
def name : Field → String
  | price => "price"
  | stockQuantity => "stock_quantity"
  | onSale => "on_sale"
  | stockStatus => "stock_status"
  | category => "category"
  | tags => "tags"
  | title => "title"
  | unknown => "invalid"

/-- The allowed field with a name.  Letter case counts. -/
def ofName (name : String) : Field := (allowed.find? (·.name = name)).getD .unknown

/-- The field holds a number. -/
def isNumeric : Field → Bool
  | price | stockQuantity => true
  | _ => false

@[simp] theorem ofName_name (f : Field) : ofName f.name = f := by cases f <;> decide

theorem mem_allowed_iff (f : Field) : f ∈ allowed ↔ f ≠ .unknown := by cases f <;> decide

end Field

/-- What a field of a product holds. -/
inductive Value where
  /-- A number, if the product has it. -/
  | number (n : Option Binary64)
  | text (s : String)
  | flag (b : Bool)
  | list (items : List String)
  deriving DecidableEq

namespace Value

/-- The value as a number, if it is one and present. -/
def number? : Value → Option Binary64
  | number n => n
  | _ => none

/-- The value as text: the items of a list with commas between them, and `null` for a number that
is missing. -/
def asText : Value → String
  | number none => "null"
  | number (some n) => Layout.rule.text n
  | text s => s
  | flag true => "true"
  | flag false => "false"
  | list items => ",".intercalate items

end Value

/-- The value of a field of a product; an unknown field has none. -/
def Product.value? (p : Product) : Field → Option Value
  | .price => some (.number (some p.price))
  | .stockQuantity => some (.number (p.stockQuantity.map fun q => .ofInt q.toInt))
  | .onSale => some (.flag p.onSale)
  | .stockStatus => some (.text p.stockStatus)
  | .category => some (.text p.category)
  | .tags => some (.list p.tags)
  | .title => some (.text p.title)
  | .unknown => none

end ProductSegments
