import ApiShell.Spec.Schema
import ApiShell.Text.Lower

/-!
# Endpoints

An endpoint is one method on one path, with everything that a description says about it.
-/

namespace ApiShell.Spec

/-- The methods that a path may offer. -/
inductive Method where
  | get
  | post
  | put
  | delete
  | patch
  | head
  | options
  | trace
deriving DecidableEq, Repr

namespace Method

/-- All methods, in the order in which they are looked for. -/
def all : List Method := [get, post, put, delete, patch, head, options, trace]

/-- The name of a method in a request. -/
def name : Method → String
  | get => "GET"
  | post => "POST"
  | put => "PUT"
  | delete => "DELETE"
  | patch => "PATCH"
  | head => "HEAD"
  | options => "OPTIONS"
  | trace => "TRACE"

/-- The name of a method in a description. -/
def key (m : Method) : String := Text.lower m.name

/-- The method of a name. -/
def ofName? (name : String) : Option Method := all.find? (·.name == name)

theorem mem_all (m : Method) : m ∈ all := by cases m <;> decide

end Method

/-- The places of a request where a parameter can stand. -/
inductive Location where
  | path
  | query
  | header
  | cookie
deriving DecidableEq, Repr

namespace Location

/-- The name of a place. -/
def name : Location → String
  | path => "path"
  | query => "query"
  | header => "header"
  | cookie => "cookie"

/-- The place of a name. -/
def ofName? (name : String) : Option Location :=
  [path, query, header, cookie].find? (·.name == name)

end Location

/-- A parameter of an operation. -/
structure Parameter where
  name : String
  location : Location
  required : Bool
  deprecated : Bool
  description : String
  schema? : Option Schema

/-- What is said about a body of one media type. -/
structure MediaType where
  schema? : Option Schema
  «example» : Value

/-- The bodies that an operation takes, by media type. -/
structure RequestBody where
  description : String
  required : Bool
  content : List (String × MediaType)

/-- A response of an operation. -/
structure Response where
  description : String
  content : List (String × MediaType)
  headers : List String

/-- A security requirement: the names of schemes and the scopes that each needs. -/
abbrev Security := List (String × List String)

/-- One method on one path. -/
structure Endpoint where
  path : String
  method : Method
  operationId : String
  summary : String
  description : String
  parameters : List Parameter
  requestBody : Option RequestBody
  responses : List (String × Response)
  tags : List String
  security : List Security
  deprecated : Bool

end ApiShell.Spec
