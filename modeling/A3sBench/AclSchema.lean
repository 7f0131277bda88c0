import A3sBench.Result
import Mathlib

/-!
# Parsed ACL documents

The parser is an external crate; what the source sees of it is a tree of blocks.
`validate_block` and `validate_scalar_block` are the checks every reader of a
document makes on the names it allows.
-/

namespace A3sBench.Acl

/-- An attribute value. The source only takes strings, numbers and lists apart. -/
inductive Value where
  | string (value : String)
  | number (text : String)
  | bool (value : Bool)
  | list (items : List Value)

def Value.asStr : Value → Option String
  | .string value => some value
  | _ => none

inductive Block where
  | mk (name : String) (labels : List String) (attributes : List (String × Value))
      (blocks : List Block)

namespace Block

def name : Block → String
  | .mk name _ _ _ => name

def labels : Block → List String
  | .mk _ labels _ _ => labels

def attributes : Block → List (String × Value)
  | .mk _ _ attributes _ => attributes

def blocks : Block → List Block
  | .mk _ _ _ blocks => blocks

/-- `block.attributes.get(key)`. -/
def get (block : Block) (key : String) : Option Value := block.attributes.lookup key

end Block

structure Document where
  blocks : List Block

inductive Labels where
  | none
  | exactly (count : Nat)

structure BlockSchema where
  attributes : List String
  children : List String
  labels : Labels

/-- `acl_schema::validate_block`. -/
def validateBlock (block : Block) (context : String) (schema : BlockSchema) : Result Unit := do
  match schema.labels with
  | .none => ensure (block.labels = []) (context ++ " must not have labels")
  | .exactly count =>
    ensure (block.labels.length = count)
      (context ++ " must have exactly " ++ toString count ++ " label(s)")
  block.attributes.forM (fun entry => ensure (entry.1 ∈ schema.attributes)
    (context ++ " contains unknown attribute " ++ entry.1.quote))
  block.blocks.forM (fun child => ensure (child.name ∈ schema.children)
    (context ++ " contains unknown block " ++ child.name.quote))

/-- `acl_schema::validate_scalar_block`. -/
def validateScalarBlock (block : Block) : Result Unit := do
  validateBlock block block.name
    { attributes := [block.name], children := [], labels := .none }
  ensure (block.attributes.length = 1) (block.name ++ " must contain exactly one value")

end A3sBench.Acl
