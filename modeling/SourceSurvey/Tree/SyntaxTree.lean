import SourceSurvey.Text.Utf8

/-!
# Syntax trees

A syntax tree as a parser hands it over: every node has a kind, the field under which its parent holds
it, the bytes of the source that it spans, and its children in order.
-/

namespace SourceSurvey

/-- What a node of a syntax tree says about itself: kind, field, and the span of source bytes from
`start` up to `stop`. -/
structure NodeInfo where
  kind : String
  field : Option String
  start : Nat
  stop : Nat
deriving DecidableEq, Repr, Inhabited

inductive SyntaxTree where
  | node (info : NodeInfo) (children : List SyntaxTree)

namespace SyntaxTree

def info : SyntaxTree → NodeInfo
  | node i _ => i

def children : SyntaxTree → List SyntaxTree
  | node _ cs => cs

mutual

def size : SyntaxTree → Nat
  | node _ cs => forestSize cs + 1

def forestSize : List SyntaxTree → Nat
  | [] => 0
  | t :: ts => size t + forestSize ts

end

/-- A tree of one node of no extent. -/
def leaf (kind : String) : SyntaxTree :=
  node ⟨kind, none, 0, 0⟩ []

instance : Inhabited SyntaxTree := ⟨leaf ""⟩

/-- Puts a node with its depth in front of a forest, whose trees carry theirs: the deeper trees that
come next are its children. -/
def graft (row : Nat × NodeInfo) (forest : List (Nat × SyntaxTree)) : List (Nat × SyntaxTree) :=
  let children := forest.takeWhile fun t => row.1 < t.1
  (row.1, node row.2 (children.map Prod.snd)) :: forest.dropWhile fun t => row.1 < t.1

/-- The tree whose nodes are listed in pre-order with their depths; none for the empty list. -/
def ofPreorder? (rows : List (Nat × NodeInfo)) : Option SyntaxTree :=
  (rows.foldr graft []).head?.map Prod.snd

end SyntaxTree

structure ParsedSource where
  bytes : List UInt8
  root : SyntaxTree

namespace ParsedSource

def slice (source : ParsedSource) (n : NodeInfo) : List UInt8 :=
  (source.bytes.take n.stop).drop n.start

/-- The number of line feeds before an offset. -/
def rowAt (source : ParsedSource) (offset : Nat) : Nat :=
  (source.bytes.take offset).count 0x0A

/-- The number of bytes between an offset and the line feed before it. -/
def columnAt (source : ParsedSource) (offset : Nat) : Nat :=
  ((source.bytes.take offset).reverse.takeWhile (· != 0x0A)).length

end ParsedSource

end SourceSurvey
