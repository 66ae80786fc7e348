/-!
# Catalog failures

Why the supplier of the catalog gave no products.

## Main definitions

* `Catalog.Failure` — the causes, with their codes and wording.
* `Catalog.Failure.isRetryable` — the failure may pass.
-/

namespace ProductSegments.Catalog

/-- Why the supplier gave no products. -/
inductive Failure where
  /-- The supplier cannot be reached. -/
  | unavailable (reason : String)
  /-- The supplier answered with a status that is no success. -/
  | status (code : Nat)
  /-- The supplier says that it refuses. -/
  | rejected
  /-- The answer holds no products. -/
  | undecodable (reason : String)
  /-- The supplier did not answer in time. -/
  | timedOut (service : String)
  /-- The client cannot work. -/
  | internal (reason : String)
  deriving DecidableEq, Repr

namespace Failure

/-- The code of a failure. -/
def code : Failure → String
  | unavailable _ => "CATALOG_UNAVAILABLE"
  | status _ => "CATALOG_STATUS_ERROR"
  | rejected => "CATALOG_REJECTED"
  | undecodable _ => "CATALOG_DECODE_ERROR"
  | timedOut _ => "CATALOG_TIMEOUT"
  | internal _ => "INTERNAL_ERROR"

/-- The wording of a failure. -/
def message : Failure → String
  | unavailable reason => s!"商品目录服务不可用: {reason}"
  | status code => s!"商品目录服务返回错误状态: {code}"
  | rejected => "商品目录服务拒绝请求"
  | undecodable reason => s!"商品目录响应解析失败: {reason}"
  | timedOut service => s!"商品目录请求超时: {service}"
  | internal reason => s!"内部错误: {reason}"

/-- The failure may pass: the supplier was not reached, was late, or is in trouble itself. -/
def isRetryable : Failure → Bool
  | unavailable _ | timedOut _ => true
  | status code => 500 ≤ code
  | rejected | undecodable _ | internal _ => false

end Failure

end ProductSegments.Catalog
