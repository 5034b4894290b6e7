/-!
# Symbols

The six kinds of symbols a module holds, the policies under which one may be declared, the roles
of accessor methods, and the identities by which definitions and declarations are known. An
identity is a number; it names an object and never holds it, so a cycle of references is nothing
special.
-/

namespace Graft

/-- What a symbol is. -/
inductive SymbolKind where
  | module | type | field | method | property | event
  deriving DecidableEq, Repr, Hashable, Inhabited

/-- The word for a kind in messages. -/
def SymbolKind.word : SymbolKind → String
  | .module => "module"
  | .type => "type"
  | .field => "field"
  | .method => "method"
  | .property => "property"
  | .event => "event"

/-- Every kind of symbol. -/
def SymbolKind.all : List SymbolKind :=
  [.module, .type, .field, .method, .property, .event]

/-- A symbol as messages name it: its kind and its full name when the message was made. -/
structure Symbol where
  kind : SymbolKind
  name : String
  deriving DecidableEq, Repr, Inhabited

/-- The kind and the name, separated by a space. -/
def Symbol.text (symbol : Symbol) : String :=
  symbol.kind.word ++ " " ++ symbol.name

/-- What a declaration asks of the existing definitions: that there is none, that there is one,
or that one is made when there is none. -/
inductive Policy where
  | failIfPresent | failIfMissing | createIfMissing
  deriving DecidableEq, Repr, Hashable, Inhabited

/-- The word for a policy in messages. -/
def Policy.word : Policy → String
  | .failIfPresent => "FailIfPresent"
  | .failIfMissing => "FailIfMissing"
  | .createIfMissing => "CreateIfMissing"

/-- Every policy. -/
def Policy.all : List Policy :=
  [.failIfPresent, .failIfMissing, .createIfMissing]

/-- What an accessor method does for its property or event. -/
inductive AccessorRole where
  | getter | setter | adder | remover | invoker | other
  deriving DecidableEq, Repr, Hashable, Inhabited

/-- The word for a role in messages. -/
def AccessorRole.word : AccessorRole → String
  | .getter => "getter"
  | .setter => "setter"
  | .adder => "adder"
  | .remover => "remover"
  | .invoker => "invoker"
  | .other => "other"

/-- Every role. -/
def AccessorRole.all : List AccessorRole :=
  [.getter, .setter, .adder, .remover, .invoker, .other]

/-- The bit by which a method-semantics row records a role. -/
def AccessorRole.semantics : AccessorRole → UInt16
  | .setter => 0x01
  | .getter => 0x02
  | .other => 0x04
  | .adder => 0x08
  | .remover => 0x10
  | .invoker => 0x20

/-- The identity of a definition of the given kind. -/
structure DefId (kind : SymbolKind) where
  index : Nat
  deriving DecidableEq, Repr, Hashable, Inhabited

/-- The identity of a declaration of the given kind. -/
structure DeclId (kind : SymbolKind) where
  index : Nat
  deriving DecidableEq, Repr, Hashable, Inhabited

/-- The identity of a slot that receives the owner of a generic variable later. -/
structure SlotId where
  index : Nat
  deriving DecidableEq, Repr, Hashable, Inhabited

/-- The identity of a definition of any kind. -/
inductive Definition where
  | module (id : DefId .module)
  | type (id : DefId .type)
  | field (id : DefId .field)
  | method (id : DefId .method)
  | property (id : DefId .property)
  | event (id : DefId .event)
  deriving DecidableEq, Repr, Hashable, Inhabited

/-- The kind of a definition. -/
def Definition.kind : Definition → SymbolKind
  | .module _ => .module
  | .type _ => .type
  | .field _ => .field
  | .method _ => .method
  | .property _ => .property
  | .event _ => .event

/-- The identity of a declaration of any kind. -/
inductive Declaration where
  | module (id : DeclId .module)
  | type (id : DeclId .type)
  | field (id : DeclId .field)
  | method (id : DeclId .method)
  | property (id : DeclId .property)
  | event (id : DeclId .event)
  deriving DecidableEq, Repr, Hashable, Inhabited

/-- The kind of a declaration. -/
def Declaration.kind : Declaration → SymbolKind
  | .module _ => .module
  | .type _ => .type
  | .field _ => .field
  | .method _ => .method
  | .property _ => .property
  | .event _ => .event

end Graft
