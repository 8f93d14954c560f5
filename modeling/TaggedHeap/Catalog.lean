import TaggedHeap.Category

/-! A catalog lists kinds and boundaries in the order of their tags. It is only a proposal: whether
its entries stand where they may is decided when a tag space is built from it. -/
namespace TaggedHeap

structure Declaration where
  name : String
  category : Category
  deriving DecidableEq, Repr

inductive CatalogEntry where
  | kind (declared : Declaration)
  | boundary (marker : Boundary)
  deriving DecidableEq, Repr

structure Catalog where
  entries : List CatalogEntry
  deriving DecidableEq, Repr

namespace Catalog

def empty : Catalog := ⟨[]⟩

def kinds (c : Catalog) (category : Category) (names : List String) : Catalog :=
  ⟨c.entries ++ names.map fun name => .kind ⟨name, category⟩⟩

def kind (c : Catalog) (name : String) (category : Category) : Catalog :=
  ⟨c.entries ++ [.kind ⟨name, category⟩]⟩

def boundary (c : Catalog) (marker : Boundary) : Catalog := ⟨c.entries ++ [.boundary marker]⟩

def size (c : Catalog) : Nat := c.entries.length

def isEmpty (c : Catalog) : Bool := c.entries.isEmpty

end Catalog

end TaggedHeap
