import ModelOperator.Json.Value

/-!
# Health

    The operator answers two questions about itself: whether it is alive, always with
    yes, and whether it is ready, with yes from the moment it says so. -/

namespace ModelOperator

/-- Whether the operator has become ready. -/
structure Health where
  ready : Bool := false
  deriving DecidableEq, Repr

/-- The answer to a question. -/
structure HealthReply where
  status : Nat
  body : String := ""
  deriving DecidableEq, Repr

namespace Health

/-- The operator becomes ready. -/
def markReady (_ : Health) : Health := ⟨true⟩

/-- The answer on a path, none where nothing is asked. -/
def page? (h : Health) (path : String) : Option HealthReply :=
  if path = "/healthz" then some ⟨200, "ok"⟩
  else if path = "/readyz" then some (if h.ready then ⟨200, "ok"⟩ else ⟨503, "not ready"⟩)
  else none

/-- An address without its query. -/
def pathOf (address : String) : String :=
  String.ofList (address.toList.takeWhile fun c => c != '?' && c != '#')

/-- The answer to a request: only pages that exist are answered, and only reading them;
    `HEAD` asks for no body. -/
def answer (h : Health) (method address : String) : HealthReply :=
  match h.page? (pathOf address) with
  | none => ⟨404, ""⟩
  | some page =>
    if method = "GET" then page
    else if method = "HEAD" then ⟨page.status, ""⟩
    else ⟨405, ""⟩

end Health

end ModelOperator
