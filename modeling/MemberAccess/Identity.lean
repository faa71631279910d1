/-!
# Identity — what types, members, dispatch slots, registries and bodies are known by

Every type, member, virtual slot, registry and compiled body is known by a
number of its own, and two things are the same exactly when their numbers
are. This file gives each kind of thing a type of numbers, names the
built-in types, and hands out fresh numbers from one ascending `Supply`, so
that nothing new is ever mistaken for something older.

The numbers are unbounded. Counters of a fixed width, 32 bits for types and
slots and 64 for the rest, wrap once every number has been given out, and
identities are then given out again. That is left out: whatever is said here
about fresh identities holds of such counters as long as they have not wrapped.
-/

namespace MemberAccess

/-- **The identity of a type.** Numbers below `TypeHandle.firstUser` are kept
for the built-in types. -/
structure TypeHandle where
  raw : Nat
deriving DecidableEq, Inhabited, Repr

/-- The identity of a field, property, method or constructor. -/
structure MemberId where
  raw : Nat
deriving DecidableEq, Inhabited, Repr

/-- **A dispatch slot**, shared by a virtual method and all that override it. -/
structure VirtualSlot where
  raw : Nat
deriving DecidableEq, Inhabited, Repr

/-- The identity of a built registry. -/
structure RegistryId where
  raw : Nat
deriving DecidableEq, Inhabited, Repr

/-- The identity of one compiled body; two accessors share a body exactly when
they carry the same one. -/
structure BodyId where
  raw : Nat
deriving DecidableEq, Inhabited, Repr

namespace TypeHandle

/-- The absence of a value, as a method's return type. -/
def void : TypeHandle := ⟨0⟩
/-- The root of every hierarchy. -/
def object : TypeHandle := ⟨1⟩
def bool : TypeHandle := ⟨2⟩
def int32 : TypeHandle := ⟨3⟩
def int64 : TypeHandle := ⟨4⟩
def float64 : TypeHandle := ⟨5⟩
/-- Immutable text, a reference type. -/
def string : TypeHandle := ⟨6⟩

/-- The built-in types, in the order in which a catalog registers them. -/
def builtins : List TypeHandle := [void, object, bool, int32, int64, float64, string]

/-- The least number a defined type can have. -/
def firstUser : Nat := 64

/-- Whether the number is one of those kept for built-in types. -/
def isBuiltin (h : TypeHandle) : Bool := h.raw < firstUser

/-- The root of every hierarchy is built in. -/
theorem ne_object {h : TypeHandle} (hbuiltin : h.isBuiltin = false) : h ≠ object := by
  rintro rfl
  cases hbuiltin

/-- The name of a built-in type; other numbers have none. -/
def builtinName? (h : TypeHandle) : Option String :=
  match h.raw with
  | 0 => some "Void"
  | 1 => some "Object"
  | 2 => some "Bool"
  | 3 => some "Int32"
  | 4 => some "Int64"
  | 5 => some "Float64"
  | 6 => some "String"
  | _ => none

/-- A built-in type is written by name, any other by number. -/
def text (h : TypeHandle) : String :=
  match h.builtinName? with
  | some name => name
  | none => "type#" ++ toString h.raw

end TypeHandle

def MemberId.text (m : MemberId) : String := "member#" ++ toString m.raw

def RegistryId.text (r : RegistryId) : String := "registry#" ++ toString r.raw

/-! ## Fresh identities -/

/-- **The numbers not given out yet**: all from `next` on. -/
structure Supply where
  next : Nat := TypeHandle.firstUser
deriving DecidableEq, Inhabited, Repr

namespace Supply

/-- The number given out, and what is left. -/
def take (s : Supply) : Nat × Supply := (s.next, ⟨s.next + 1⟩)

@[simp] theorem take_fst (s : Supply) : s.take.1 = s.next := rfl

@[simp] theorem take_next (s : Supply) : s.take.2.next = s.next + 1 := rfl

end Supply

end MemberAccess
