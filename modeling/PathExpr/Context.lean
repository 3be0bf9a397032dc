import PathExpr.Value

set_option autoImplicit false

namespace PathExpr

abbrev Found (ν : Type) : Option Kind → Type
  | none => Value ν
  | some k => Payload ν k

/-- A lookup asks for whatever a path leads to, or for something of one kind only; then a part of
another kind counts as missing. -/
structure Context (ν : Type) where
  lookup : (family : Option Kind) → Path → Option (Found ν family)

namespace Context

variable {ν : Type}

def empty : Context ν := ⟨fun _ _ => none⟩

/-- Answers lookups of a kind from the lookups of any kind. -/
def narrowed (get? : Path → Option (Value ν)) : Context ν where
  lookup
    | none, path => get? path
    | some k, path => (get? path).bind (Value.payload? k)

/-- A value as a context: every path starts at it. -/
def ofValue (v : Value ν) : Context ν where
  lookup
    | none, path => v.get? path
    | some k, path => (v.get? path).bind (Value.payload? k)

end Context

structure Lookup where
  family : Option Kind
  path : Path
deriving Repr, DecidableEq

/-- A result and the lookups that were made for it, in order. -/
structure Traced (α : Type) where
  value : α
  lookups : List Lookup
deriving Repr, DecidableEq

namespace Traced

variable {α β : Type}

def pure (a : α) : Traced α := ⟨a, []⟩

def bind (first : Traced α) (next : α → Traced β) : Traced β :=
  ⟨(next first.value).value, first.lookups ++ (next first.value).lookups⟩

def map (f : α → β) (t : Traced α) : Traced β := ⟨f t.value, t.lookups⟩

@[simp] theorem value_pure (a : α) : (pure a).value = a := rfl

@[simp] theorem lookups_pure (a : α) : (pure a).lookups = [] := rfl

@[simp] theorem value_bind (first : Traced α) (next : α → Traced β) :
    (first.bind next).value = (next first.value).value := rfl

@[simp] theorem lookups_bind (first : Traced α) (next : α → Traced β) :
    (first.bind next).lookups = first.lookups ++ (next first.value).lookups := rfl

@[simp] theorem value_map (f : α → β) (t : Traced α) : (t.map f).value = f t.value := rfl

@[simp] theorem lookups_map (f : α → β) (t : Traced α) : (t.map f).lookups = t.lookups := rfl

end Traced

def Context.find {ν : Type} (ctx : Context ν) (family : Option Kind) (path : Path) :
    Traced (Option (Found ν family)) :=
  ⟨ctx.lookup family path, [⟨family, path⟩]⟩

end PathExpr
