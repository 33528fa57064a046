namespace SwiftSource

-- A set of keywords out of a fixed vocabulary. Bit `i` stands for the `i`-th keyword, so a
-- set has one spelling whatever the order in which it was put together.
structure KeywordSet (vocabulary : List String) where
  bits : BitVec vocabulary.length
deriving DecidableEq

namespace KeywordSet

variable {vocabulary : List String}

def empty : KeywordSet vocabulary := ⟨0#_⟩

def all : KeywordSet vocabulary := ⟨BitVec.allOnes _⟩

-- Bits outside the vocabulary are dropped.
def ofNat (bits : Nat) : KeywordSet vocabulary := ⟨BitVec.ofNat _ bits⟩

-- Bits outside the vocabulary are refused.
def ofNat? (bits : Nat) : Option (KeywordSet vocabulary) :=
  if bits < 1 <<< vocabulary.length then some (ofNat bits) else none

-- The set of one keyword, empty if the vocabulary lacks it.
def single (keyword : String) : KeywordSet vocabulary :=
  ofNat (1 <<< vocabulary.idxOf keyword)

def toNat (set : KeywordSet vocabulary) : Nat := set.bits.toNat

def union (a b : KeywordSet vocabulary) : KeywordSet vocabulary := ⟨a.bits ||| b.bits⟩

def inter (a b : KeywordSet vocabulary) : KeywordSet vocabulary := ⟨a.bits &&& b.bits⟩

def complement (a : KeywordSet vocabulary) : KeywordSet vocabulary := ⟨~~~a.bits⟩

def remove (a b : KeywordSet vocabulary) : KeywordSet vocabulary := a.inter b.complement

def toggle (a b : KeywordSet vocabulary) : KeywordSet vocabulary := ⟨a.bits ^^^ b.bits⟩

-- Puts the keywords of `b` in, or takes them out.
def set (a b : KeywordSet vocabulary) (present : Bool) : KeywordSet vocabulary :=
  if present then a.union b else a.remove b

def contains (a b : KeywordSet vocabulary) : Bool := a.inter b == b

def intersects (a b : KeywordSet vocabulary) : Bool := a.inter b != empty

-- The keywords of the set, in the order of the vocabulary.
def keywords (set : KeywordSet vocabulary) : List String :=
  (vocabulary.zipIdx.filter fun entry => set.bits.getLsbD entry.2).map Prod.fst

end KeywordSet

-- What may stand in front of a declaration. Internal access is never spelled.
abbrev Modifiers := KeywordSet ["public", "fileprivate", "private", "static"]

-- What a function may do besides returning.
abbrev Effects := KeywordSet ["async", "throws"]

def Modifiers.ofStatic (isStatic : Bool) : Modifiers :=
  if isStatic then .single "static" else .empty

def Effects.of (isAsync canThrow : Bool) : Effects :=
  (KeywordSet.empty.set (.single "async") isAsync).set (.single "throws") canThrow

end SwiftSource
