/-!
The six kinds of named objects, and tables with one entry for each kind.

A `PerKind` table is read and written through `get` and `set`; `get_set` says
what a write does to every entry, so the six entries are independent of each other.
-/

namespace SharedNames

/-- The kinds of objects that have names of their own. -/
inductive ObjectKind where
  | vertexBuffer
  | texture
  | renderbuffer
  | framebuffer
  | shader
  | program
  deriving DecidableEq, Repr

namespace ObjectKind

def all : List ObjectKind :=
  [vertexBuffer, texture, renderbuffer, framebuffer, shader, program]

/-- The position of a kind in `all`. -/
def index : ObjectKind → Nat
  | vertexBuffer => 0
  | texture => 1
  | renderbuffer => 2
  | framebuffer => 3
  | shader => 4
  | program => 5

def label : ObjectKind → String
  | vertexBuffer => "vertex buffer"
  | texture => "texture"
  | renderbuffer => "renderbuffer"
  | framebuffer => "framebuffer"
  | shader => "shader"
  | program => "program"

/-- A sum or a list over `all` misses no kind. -/
theorem mem_all (kind : ObjectKind) : kind ∈ all := by
  cases kind <;> decide

end ObjectKind

/-! ### One entry for each kind -/

/-- A table with one entry for each kind of object. -/
structure PerKind (α : Type) where
  vertexBuffer : α
  texture : α
  renderbuffer : α
  framebuffer : α
  shader : α
  program : α
  deriving DecidableEq, Repr

namespace PerKind

variable {α β : Type}

def const (a : α) : PerKind α :=
  ⟨a, a, a, a, a, a⟩

def get (t : PerKind α) : ObjectKind → α
  | .vertexBuffer => t.vertexBuffer
  | .texture => t.texture
  | .renderbuffer => t.renderbuffer
  | .framebuffer => t.framebuffer
  | .shader => t.shader
  | .program => t.program

def set (t : PerKind α) (kind : ObjectKind) (a : α) : PerKind α :=
  match kind with
  | .vertexBuffer => { t with vertexBuffer := a }
  | .texture => { t with texture := a }
  | .renderbuffer => { t with renderbuffer := a }
  | .framebuffer => { t with framebuffer := a }
  | .shader => { t with shader := a }
  | .program => { t with program := a }

def toList (t : PerKind α) : List α :=
  ObjectKind.all.map t.get

@[simp] theorem get_const (a : α) (kind : ObjectKind) : (const a).get kind = a := by
  cases kind <;> rfl

@[simp] theorem get_set_self (t : PerKind α) (kind : ObjectKind) (a : α) :
    (t.set kind a).get kind = a := by
  cases kind <;> rfl

/-- What a write does to every entry. The case split over the kinds is made here, once for all
six. -/
theorem get_set (t : PerKind α) (kind other : ObjectKind) (a : α) :
    (t.set kind a).get other = if kind = other then a else t.get other := by
  cases kind <;> cases other <;> rfl

theorem get_set_of_ne (t : PerKind α) {kind other : ObjectKind} (a : α) (h : kind ≠ other) :
    (t.set kind a).get other = t.get other := by
  rw [get_set, if_neg h]

/-- Tables with the same entries are equal. Statements about a group are proved kind by kind,
with this at the end. -/
theorem ext_get {s t : PerKind α} (h : ∀ kind, s.get kind = t.get kind) : s = t := by
  cases s
  cases t
  congr 1
  · exact h .vertexBuffer
  · exact h .texture
  · exact h .renderbuffer
  · exact h .framebuffer
  · exact h .shader
  · exact h .program

@[simp] theorem set_get (t : PerKind α) (kind : ObjectKind) : t.set kind (t.get kind) = t := by
  cases kind <;> rfl

end PerKind

end SharedNames
