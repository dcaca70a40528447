import ModelOperator.Cluster.Error
import ModelOperator.Json.Value

/-!
# Requests to the cluster

    The objects of one kind form a collection with a path.  A collection is read and
    written through requests; each is built only if its name is not empty and its
    address is one.

    * `Collection.path` is the path of a collection;
    * `Collection.getRequest`, `createRequest`, `replaceRequest` and `patchRequest` are
      the requests on it. -/

namespace ModelOperator

/-- A request to the cluster's interface. -/
structure ClusterRequest where
  method : String
  uri : String
  contentType : Option String := none
  body : Option Json := none

/-- How the body of a patch is meant: as the fields that a manager owns, or as a merge. -/
inductive PatchType where
  | apply
  | merge
  deriving DecidableEq, Repr

/-- The content type of a patch. -/
def PatchType.contentType : PatchType → String
  | apply => "application/apply-patch+yaml"
  | merge => "application/merge-patch+json"

/-- In whose name a patch is sent, and whether it takes fields from other managers. -/
structure PatchOptions where
  manager : Option String := none
  force : Bool := false
  deriving DecidableEq, Repr

/-- The query of a patch. -/
def PatchOptions.query (o : PatchOptions) : String :=
  "?" ++ (if o.force then "&force=true" else "") ++
    (match o.manager with
      | some name => "&fieldManager=" ++ name
      | none => "")

/-- A kind of object that the interface serves. -/
structure ObjectKind where
  group : String
  version : String
  plural : String
  deriving DecidableEq, Repr

namespace ObjectKind

/-- The path of the group and version; the core group stands apart. -/
def root (k : ObjectKind) : String :=
  if k.group = "" then "/api/" ++ k.version else "/apis/" ++ k.group ++ "/" ++ k.version

/-- Stateful sets. -/
def statefulSets : ObjectKind := ⟨"apps", "v1", "statefulsets"⟩

/-- Services. -/
def services : ObjectKind := ⟨"", "v1", "services"⟩

/-- Config maps. -/
def configMaps : ObjectKind := ⟨"", "v1", "configmaps"⟩

/-- Secrets. -/
def secrets : ObjectKind := ⟨"", "v1", "secrets"⟩

/-- Events. -/
def events : ObjectKind := ⟨"events.k8s.io", "v1", "events"⟩

/-- Leases. -/
def leases : ObjectKind := ⟨"coordination.k8s.io", "v1", "leases"⟩

/-- Models. -/
def models : ObjectKind := ⟨"ollama.dev", "v1alpha1", "models"⟩

/-- Prompts. -/
def prompts : ObjectKind := ⟨"ollama.dev", "v1alpha1", "prompts"⟩

/-- Definitions of further kinds. -/
def definitions : ObjectKind := ⟨"apiextensions.k8s.io", "v1", "customresourcedefinitions"⟩

end ObjectKind

/-- The objects of a kind, in one namespace or outside of all. -/
structure Collection where
  kind : ObjectKind
  ns : Option String := none
  deriving DecidableEq, Repr

/-- The objects of a kind in a namespace. -/
def ObjectKind.within (k : ObjectKind) (ns : String) : Collection := ⟨k, some ns⟩

namespace Collection

/-- The path of a collection. -/
def path (c : Collection) : String :=
  match c.ns with
  | some ns => c.kind.root ++ "/namespaces/" ++ ns ++ "/" ++ c.kind.plural
  | none => c.kind.root ++ "/" ++ c.kind.plural

/-- A request, if its address is one. -/
def build (method address : String) (contentType : Option String := none)
    (body : Option Json := none) : Except CallError ClusterRequest :=
  match Address.ofText address with
  | .ok uri => .ok ⟨method, uri, contentType, body⟩
  | .error fault => .error (.unbuilt fault)

/-- A request on one object, which must have a name. -/
def buildNamed (c : Collection) (method name rest : String)
    (contentType : Option String := none) (body : Option Json := none) :
    Except CallError ClusterRequest :=
  if name = "" then .error (.unbuilt .emptyName)
  else build method (c.path ++ "/" ++ name ++ rest) contentType body

/-- Asks for an object. -/
def getRequest (c : Collection) (name : String) : Except CallError ClusterRequest :=
  c.buildNamed "GET" name ""

/-- Makes a new object. -/
def createRequest (c : Collection) (object : Json) : Except CallError ClusterRequest :=
  build "POST" (c.path ++ "?") (some "application/json") (some object)

/-- Puts an object in the place of the one with a name. -/
def replaceRequest (c : Collection) (name : String) (object : Json) :
    Except CallError ClusterRequest :=
  c.buildNamed "PUT" name "?" (some "application/json") (some object)

/-- Changes an object, or a part of it that is served on its own. -/
def patchRequest (c : Collection) (name part : String) (type : PatchType)
    (options : PatchOptions) (body : Json) : Except CallError ClusterRequest :=
  c.buildNamed "PATCH" name (part ++ options.query) (some type.contentType) (some body)

end Collection

end ModelOperator
