import BetaNormal.Text

/-!
# Kinds

What a slot of a message finds has a kind: it is a text, a number, or one of the things that a kind
is made of.  A kind has a name, some facts about it, and members, which are found under their names
in everything of that kind.  Above every kind there is the most general one, whose members the
others have as well.
-/

namespace BetaNormal

/-- The kinds of findings: texts, numbers, truth values, nothing, rows, kinds themselves, and
everything; the five sorts of members that stand on their own; members that are bound to something;
the table of the members of a kind; and a kind with an argument. -/
inductive Kind where
  | text
  | number
  | truth
  | nothing
  | row
  | ofKinds
  | general
  | operator
  | method
  | methodOfKind
  | computed
  | stored
  | boundOperator
  | boundMethod
  | table
  | applied
  deriving DecidableEq, Repr

/-- What is known about a kind besides its members: its name, the sizes of a thing of that kind and
of its items, the places of its table and of its weak references, its flags, and the signature and
the description of its creation. -/
structure Kind.Facts where
  name : String
  size : Nat
  itemSize : Nat
  tablePlace : Nat
  weakPlace : Nat
  flags : Nat
  signature : Option String
  description : Option String
  deriving DecidableEq, Repr

/-- How a member is found.  Operators and methods are bound to the thing in which they are found,
methods of a kind to its kind, and creators to the kind that they belong to.  Computed and stored
members stand for a value of the thing, the description for that of the kind, and an absent member
for nothing. -/
inductive Shape where
  | operator
  | method
  | methodOfKind
  | creator
  | computed
  | stored
  | description
  | absent
  deriving DecidableEq, Repr

/-- Something that is found in the things of a kind, with its signature and its description. -/
structure Member where
  shape : Shape
  name : String
  signature : Option String
  description : Option String
  deriving DecidableEq, Repr

namespace Shape

def kind : Shape → Kind
  | operator => .operator
  | method => .method
  | methodOfKind => .methodOfKind
  | computed => .computed
  | stored => .stored
  | creator => .boundMethod
  | description | absent => .nothing

def boundKind : Shape → Kind
  | operator => .boundOperator
  | _ => .boundMethod

/-- Whether a member stands for a value of the thing in which it is found.  In a kind such a member
is found before those of the things of that kind. -/
def isValue : Shape → Bool
  | computed | stored => true
  | _ => false

def words : Shape → Text
  | operator => "slot wrapper"
  | method | methodOfKind | creator => "method"
  | stored => "member"
  | computed | description | absent => "attribute"

end Shape

end BetaNormal
