import MemberAccess.Accessor.Caches
import MemberAccess.Text.Quoted
/-!
# Describe — values, types, members and bodies in one line of text

Descriptions for people, in one uniform shape: a name and, between braces,
fields with their values. How identities look is left to the caller, who may
have better names for them than their numbers.
-/

namespace MemberAccess

namespace Describe

/-- **How identities are written.** -/
structure Names where
  type : TypeHandle → String := fun h => toString h.raw
  member : MemberId → String := fun m => toString m.raw
  slot : VirtualSlot → String := fun s => toString s.raw

/-- A name followed by an argument in parentheses. -/
def apply (name argument : String) : String := name ++ "(" ++ argument ++ ")"

def list (items : List String) : String := "[" ++ ", ".intercalate items ++ "]"

def option (x : Option String) : String :=
  match x with
  | some s => apply "Some" s
  | none => "None"

def bool (b : Bool) : String := if b then "true" else "false"

/-- A field of a record: its name and the description of its value. -/
abbrev Entry : Type := String × String

def entries (fields : List Entry) : List String :=
  fields.map fun (name, value) => name ++ ": " ++ value

/-- **A record**: a name and fields between braces. -/
def record (name : String) (fields : List Entry) : String :=
  name ++ " \x7b " ++ ", ".intercalate (entries fields) ++ " \x7d"

/-- A record that has more fields than it shows. -/
def openRecord (name : String) (fields : List Entry) : String :=
  name ++ " \x7b " ++ ", ".intercalate (entries fields ++ [".."]) ++ " \x7d"

variable (names : Names)

def typeHandle (h : TypeHandle) : String := apply "TypeHandle" (names.type h)

def memberId (m : MemberId) : String := apply "MemberId" (names.member m)

def virtualSlot (s : VirtualSlot) : String := apply "VirtualSlot" (names.slot s)

def visibility : Visibility → String
  | .anyone => "Public"
  | .family => "Protected"
  | .assembly => "Internal"
  | .owner => "Private"

def primitive : Primitive → String
  | .bool => "Bool"
  | .int32 => "Int32"
  | .int64 => "Int64"
  | .float64 => "Float64"

def kind : TypeKind → String
  | .void => "Void"
  | .primitive p => apply "Primitive" (primitive p)
  | .classType => "Class"
  | .structType => "Struct"
  | .interfaceType => "Interface"

def parameter (p : Parameter) : String :=
  record "ParameterInfo"
    [("name", Text.quoted p.name), ("parameter_type", typeHandle names p.type),
      ("position", toString p.position)]

def parameters (ps : List Parameter) : String := list (ps.map (parameter names))

/-- A method, without its body. -/
def method (m : Method) : String :=
  record "MethodInfo"
    [("id", memberId names m.id), ("name", Text.quoted m.name),
      ("declaring_type", typeHandle names m.declaringType),
      ("parameters", parameters names m.parameters),
      ("return_type", typeHandle names m.returnType), ("visibility", visibility m.visibility),
      ("is_static", bool m.isStatic), ("virtual_slot", option (m.slot.map (virtualSlot names))),
      ("abstract", bool m.isAbstract)]

/-- A constructor, without its body. -/
def constructor (c : Constructor) : String :=
  record "ConstructorInfo"
    [("id", memberId names c.id), ("declaring_type", typeHandle names c.declaringType),
      ("parameters", parameters names c.parameters), ("visibility", visibility c.visibility)]

/-- The head of a type, without its members. -/
def type (t : TypeDef) : String :=
  openRecord "TypeDef"
    [("handle", typeHandle names t.handle), ("name", Text.quoted t.name), ("kind", kind t.kind),
      ("is_abstract", bool t.declaredAbstract),
      ("base", option (t.base.map (typeHandle names))),
      ("interfaces", list (t.interfaces.map (typeHandle names)))]

/-- **A value.** Objects go by type and number; `number` says which number an
object has. -/
def value (h : Heap) (number : ObjectRef → Nat) : Value → String
  | .null => "null"
  | .bool b => bool b
  | .int32 i => toString i ++ "i32"
  | .int64 i => toString i ++ "i64"
  | .float64 x => x.text ++ "f64"
  | .str s => Text.quoted s
  | .object r => (h.typeAt r).name ++ "#" ++ toString (number r)

/-- A finished body. -/
def code (c : Code) : String :=
  record "DynamicMethod"
    [("name", Text.quoted c.name), ("code", list (c.ops.map (·.text))),
      ("max_stack", toString c.maxStack)]

def shape : Shape → String
  | .getter => "Getter"
  | .setter => "Setter"
  | .invoker => "Invoker"
  | .factory => "Factory"
  | .defaultFactory => "DefaultFactory"
  | .typedGetter => "TypedGetter"
  | .typedSetter => "TypedSetter"

/-- An accessor, by its form and name. -/
def accessor (a : Accessor) : String := apply (shape a.shape) a.code.name

def cache (c : Cache) : String := record "AccessorCache" [("entries", toString c.size)]

/-- Where accessors are kept; a private cache says how many it holds. -/
def cacheMode (cs : Caches) : CacheMode → String
  | .common => "Global"
  | .own i => apply "Private" (toString (cs.get (.own i)).size ++ " entries")

end Describe

end MemberAccess
