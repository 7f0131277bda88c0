import A3sBench.Platform
import A3sBench.Result
import A3sBench.Text
import Mathlib

/-!
# JSON values

Values as `serde_json` keeps them: a number is an unsigned integer, a negative
one or a float, which is kept as the text it is printed as, and the members of
an object have different names. Parsing is a parameter where the source parses.
-/

namespace A3sBench

inductive JsonNumber where
  | posInt (value : UInt64)
  | negInt (value : Int)
  | float (text : String)
  deriving DecidableEq

inductive Json where
  | null
  | bool (value : Bool)
  | number (value : JsonNumber)
  | string (value : String)
  | array (items : List Json)
  | object (members : List (String × Json))

namespace Json

/-- `Value::get` with a name. -/
def get (value : Json) (name : String) : Option Json :=
  match value with
  | .object members => members.lookup name
  | _ => none

def asStr : Json → Option String
  | .string value => some value
  | _ => none

def asBool : Json → Option Bool
  | .bool value => some value
  | _ => none

def asU64 : Json → Option UInt64
  | .number (.posInt value) => some value
  | _ => none

/-- `Value::pointer` with names only. -/
def pointer (value : Json) : List String → Option Json
  | [] => some value
  | name :: path => (value.get name).bind (fun inner => pointer inner path)

/-- The escape of a character inside a string. -/
def escape (c : Char) : List Char :=
  if c = '"' then ['\\', '"']
  else if c = '\\' then ['\\', '\\']
  else if c.toNat = 8 then ['\\', 'b']
  else if c.toNat = 9 then ['\\', 't']
  else if c.toNat = 10 then ['\\', 'n']
  else if c.toNat = 12 then ['\\', 'f']
  else if c.toNat = 13 then ['\\', 'r']
  else if c.toNat < 32 then
    ['\\', 'u', '0', '0', Nat.digitChar (c.toNat / 16), Nat.digitChar (c.toNat % 16)]
  else [c]

def quoted (s : String) : List Char := '"' :: (s.toList.flatMap escape ++ ['"'])

def numberText : JsonNumber → List Char
  | .posInt value => (toString value.toNat).toList
  | .negInt value => (toString value).toList
  | .float text => text.toList

mutual

/-- The compact form, as characters. -/
def compact : Json → List Char
  | .null => "null".toList
  | .bool value => (toString value).toList
  | .number value => numberText value
  | .string value => quoted value
  | .array items => '[' :: (compactItems items ++ [']'])
  | .object members => '\x7b' :: (compactMembers members ++ ['\x7d'])

def compactItems : List Json → List Char
  | [] => []
  | [item] => compact item
  | item :: rest => compact item ++ ',' :: compactItems rest

def compactMembers : List (String × Json) → List Char
  | [] => []
  | [(name, value)] => quoted name ++ ':' :: compact value
  | (name, value) :: rest => quoted name ++ ':' :: (compact value ++ ',' :: compactMembers rest)

end

/-- `serde_json::to_vec`. -/
def toVec (value : Json) : Bytes := utf8Chars (compact value)

theorem compactMembers_concat (members : List (String × Json)) (name : String) :
    ∃ front, ∀ value, compactMembers (members ++ [(name, value)]) = front ++ compact value := by
  induction members with
  | nil => exact ⟨quoted name ++ [':'], fun value => by simp [compactMembers]⟩
  | cons member members ih =>
    obtain ⟨front, hfront⟩ := ih
    refine ⟨quoted member.1 ++ ':' :: (compact member.2 ++ ',' :: front), fun value => ?_⟩
    have hcons : compactMembers (member :: (members ++ [(name, value)])) =
        quoted member.1 ++ ':' :: (compact member.2 ++
          ',' :: compactMembers (members ++ [(name, value)])) := by
      cases members <;> rfl
    rw [List.cons_append, hcons, hfront]
    simp only [List.append_assoc, List.cons_append]

/-- Objects that differ in their last member only are printed alike up to its value. -/
theorem toVec_concat_inj {members : List (String × Json)} {name : String} {a b : Json}
    (h : toVec (.object (members ++ [(name, a)])) = toVec (.object (members ++ [(name, b)]))) :
    toVec a = toVec b := by
  obtain ⟨front, hfront⟩ := compactMembers_concat members name
  simp only [toVec, compact, hfront, utf8Chars, List.flatMap_cons, List.flatMap_append] at h
  exact List.append_cancel_left (List.append_cancel_right (List.append_cancel_left h))

section Optional

variable {α : Type _}

/-- An `Option` field. -/
def nullable (render : α → Json) : Option α → Json
  | none => .null
  | some value => render value

/-- An `Option` field with `skip_serializing_if = "Option::is_none"`. -/
def skipNone (name : String) (render : α → Json) : Option α → List (String × Json)
  | none => []
  | some value => [(name, render value)]

theorem nullable_injective {render : α → Json} (hinj : render.Injective)
    (hnull : ∀ value, render value ≠ .null) : (nullable render).Injective := by
  rintro (_ | a) (_ | b) h
  · rfl
  · exact absurd h.symm (hnull b)
  · exact absurd h (hnull a)
  · exact congrArg some (hinj h)

theorem skipNone_injective (name : String) {render : α → Json} (hinj : render.Injective) :
    (skipNone name render).Injective := by
  rintro (_ | a) (_ | b) h
  · rfl
  · cases h
  · cases h
  · simp only [skipNone, List.cons.injEq, Prod.mk.injEq, true_and, and_true] at h
    exact congrArg some (hinj h)

theorem string_injective : Function.Injective Json.string := fun _ _ => Json.string.inj

theorem nullable_string_inj {a b : Option String} :
    nullable .string a = nullable .string b ↔ a = b :=
  (nullable_injective string_injective (fun _ => Json.noConfusion)).eq_iff

theorem array_map_injective {render : α → Json} (hinj : render.Injective) :
    Function.Injective (fun items : List α => Json.array (items.map render)) :=
  fun _ _ h => List.map_injective_iff.mpr hinj (Json.array.inj h)

end Optional

end Json

namespace Platform

/-- A digest over the JSON of an identity. -/
def digest (os : Platform) (value : Json) : String := "sha256:" ++ os.sha256 value.toVec

/-- The printed forms of two identities do not collide. -/
def Separates (os : Platform) (a b : Json) : Prop :=
  os.sha256 a.toVec = os.sha256 b.toVec → a = b

/-- SHA-256 is printed as 64 hexadecimal characters. -/
def HexDigests (os : Platform) : Prop :=
  ∀ input, (os.sha256 input).toList.length = 64 ∧
    (os.sha256 input).toList.all Text.isHexDigit = true

theorem digest_inj {os : Platform} {a b : Json} (h : os.Separates a b) :
    os.digest a = os.digest b ↔ a = b :=
  ⟨fun heq => h (String.append_right_inj _ |>.mp heq), fun heq => heq ▸ rfl⟩

end Platform

end A3sBench
