import SwiftSource.Proofs.Layout.Inline
import SwiftSource.Proofs.Parse.Reads
import SwiftSource.Proofs.Render.Forgetting
import SwiftSource.Proofs.Tree.WellFormed

namespace SwiftSource

open Double (Numeral)

namespace Parse

theorem chars_numberNode (sign : List Char) (n : Numeral) :
    (numberNode sign n).chars = sign ++ n.chars := by
  unfold numberNode
  split <;> simp [ExprNode.chars, Print.expr, Command.flatList, Command.flat]

theorem starts_isDigit {n : Numeral} (hn : n.IsWritten) (rest : List Char) :
    starts Char.isDigit (n.chars ++ rest) = true := by
  obtain ⟨c, cs, hchars, hc⟩ := hn.head_isDigit
  rw [hchars]
  exact hc

theorem reads_number {n : Numeral} (hn : n.IsWritten) : Reads (numberNode [] n) := by
  refine .of_atom fun {rest} hrest => ?_
  have hscan := Numeral.scan_append hn hrest.numeral
  rw [chars_numberNode, List.nil_append, atom.eq_def, starts_isDigit hn rest]
  simp [number, hscan]

-- The sign belongs to the literal, so it is not read as an operator.
theorem reads_signed_number {n : Numeral} (hn : n.IsWritten) : Reads (numberNode ['-'] n) := by
  have hbase : (numberNode ['-'] n).needsGroupingAsBase = true := by
    unfold numberNode
    split <;> simp [ExprNode.needsGroupingAsBase]
  refine .of_signed hbase fun {rest} hrest => ?_
  have hscan := Numeral.scan_append hn hrest.numeral
  have hatom : atom ('-' :: (n.chars ++ rest)) = some (numberNode ['-'] n, rest) := by
    rw [atom.eq_def]
    simp [isWordChar, starts_isDigit hn rest, number, hscan]
  rw [chars_numberNode, List.singleton_append, List.cons_append, Parse.operand, hatom]
  simp [suffixes_of_stops _ hrest]

theorem isWritten_digits (k : Nat) : (Numeral.mk (Nat.toDigits 10 k) [] []).IsWritten :=
  ⟨Nat.toDigits_ne_nil, fun _ => isDigit_of_mem_toDigits, by simp, Or.inl rfl⟩

-- A node that holds a number is a numeral, possibly with a sign.
def IsNumber (node : ExprNode) : Prop :=
  ∃ n : Numeral, n.IsWritten ∧ (node = numberNode [] n ∨ node = numberNode ['-'] n)

theorem IsNumber.reads {node : ExprNode} (h : IsNumber node) : Reads node := by
  obtain ⟨n, hn, rfl | rfl⟩ := h
  · exact reads_number hn
  · exact reads_signed_number hn

theorem isNumber_integer (k : Int) : IsNumber (.integer (toString k)) := by
  rcases Int.lt_or_le k 0 with hk | hk
  · have htext : toString k = String.ofList ('-' :: Nat.toDigits 10 (-k).toNat) := by
      rw [← toList_toString_of_neg hk, String.ofList_toList]
    refine ⟨⟨Nat.toDigits 10 (-k).toNat, [], []⟩, isWritten_digits _, Or.inr ?_⟩
    simp [numberNode, htext, Numeral.chars]
  · have htext : toString k = String.ofList (Nat.toDigits 10 k.toNat) := by
      rw [← toList_toString_of_nonneg hk, String.ofList_toList]
    refine ⟨⟨Nat.toDigits 10 k.toNat, [], []⟩, isWritten_digits _, Or.inl ?_⟩
    simp [numberNode, htext, Numeral.chars]

theorem isNumber_finite {x : Double} {m : Double.Magnitude} (h : x.kind = .finite m) :
    IsNumber (.float (Double.signedNumeral x.isNegative m)) := by
  obtain ⟨n, hn, hpart, hchars, -⟩ := Double.Magnitude.exists_numeral (Double.kind_finite h).1
  have hfloat : (n.fraction.isEmpty && n.power.isEmpty) = false := by
    rcases hpart with hpart | hpart <;> simp [hpart]
  refine ⟨n, hn, ?_⟩
  cases x.isNegative with
  | false => exact Or.inl (by simp [numberNode, hfloat, Double.signedNumeral, hchars])
  | true => exact Or.inr (by simp [numberNode, hfloat, Double.signedNumeral, hchars])

theorem reads_constant {name : String} (hname : isWord name = true) :
    Reads (.member (.reference "Double") name) := by
  have hbase : Reads (.reference "Double") := reads_reference (by decide)
  exact reads_member hbase hname

theorem reads_negative_infinity :
    Reads (.prefixOp "-" (.member (.reference "Double") "infinity")) := by
  refine .of_signed rfl fun {rest} hrest => ?_
  have hconstant : Reads (.member (.reference "Double") "infinity") := reads_constant (by decide)
  have hinner := hconstant.operand rfl hrest
  have htext : (ExprNode.prefixOp "-" (.member (.reference "Double") "infinity")).chars ++ rest =
      '-' :: ((ExprNode.member (.reference "Double") "infinity").chars ++ rest) := by
    simp [ExprNode.chars_prefixOp]
  have hdigit : starts Char.isDigit
      ((ExprNode.member (.reference "Double") "infinity").chars ++ rest) = false := rfl
  rw [htext, Parse.operand, atom.eq_def]
  simp [isWordChar, hdigit, hinner, suffixes_of_stops _ hrest]

theorem reads_double (x : Double) : Reads x.node := by
  rcases x.node_cases with ⟨-, hnode⟩ | ⟨-, -, hnode⟩ | ⟨-, -, hnode⟩ | ⟨m, hkind, hnode⟩
  · rw [hnode]
    exact reads_constant (by decide)
  · rw [hnode]
    exact reads_constant (by decide)
  · rw [hnode]
    exact reads_negative_infinity
  · rw [hnode]
    exact (isNumber_finite hkind).reads

theorem reads_literal (l : Literal) : Reads l.node := by
  cases l with
  | int value => exact (isNumber_integer value.toInt).reads
  | double x => exact reads_double x
  | string value => exact reads_string value
  | bool value => exact reads_bool value
  | nil => exact reads_nil

variable {α β : Type} {isName : String → Bool}

theorem reads_node (hname : ∀ w, isName w = true → isWord w = true) {e : Expr α}
    (he : e.wellFormed isName = true) : Reads e.node := by
  induction e using Expr.induction with
  | literal value => exact reads_literal value
  | reference name payload => exact reads_reference (hname name he)
  | conditional condition thenBranch elseBranch hc ht hf =>
      simp only [Expr.wellFormed, Bool.and_eq_true] at he
      exact reads_ternary (hc he.1.1) (ht he.1.2) (hf he.2)
  | loop element collection body hc hb =>
      simp only [Expr.wellFormed, Bool.and_eq_true] at he
      exact reads_forEach (hc he.1.2) (hb he.2) (hname element he.1.1)
  | call name arguments ih =>
      simp only [Expr.wellFormed, Bool.and_eq_true, Expr.wellFormedArguments_iff] at he
      rw [Expr.node_call]
      refine reads_call (hname name he.1) ?_ ?_
      · simpa using fun a ha l hl => hname l ((he.2 a ha).1 l hl)
      · simpa using fun a ha => ih a ha (he.2 a ha).2
  | method base name arguments hb ih =>
      simp only [Expr.wellFormed, Bool.and_eq_true, Expr.wellFormedArguments_iff] at he
      rw [Expr.node_method]
      refine reads_method (hb he.1.1) (hname name he.1.2) ?_ ?_
      · simpa using fun a ha l hl => hname l ((he.2 a ha).1 l hl)
      · simpa using fun a ha => ih a ha (he.2 a ha).2
  | binary left operator right hl hr =>
      simp only [Expr.wellFormed, Bool.and_eq_true] at he
      exact reads_infixOp (hl he.1.1) (hr he.2) he.1.2
  | property base name hb =>
      simp only [Expr.wellFormed, Bool.and_eq_true] at he
      exact reads_member (hb he.1) (hname name he.2)
  | inline name type initializer ih => exact ih he
  | array elements ih =>
      simp only [Expr.wellFormed, Expr.wellFormedElements_iff] at he
      rw [Expr.node_array]
      exact reads_array (by simpa using fun e hmem => ih e hmem (he e hmem))

-- No expression begins with a blank.
theorem Reads.starts_isBlank {node : ExprNode} (h : Reads node) :
    starts isBlank node.chars = false := by
  have hread := h.whole ends_nil
  rw [List.append_nil] at hread
  cases hchars : node.chars with
  | nil => rfl
  | cons c cs =>
      by_contra hc
      have hblank : c = ' ' ∨ c = '\t' := by
        simpa only [starts_cons, isBlank, Bool.not_eq_false, Bool.or_eq_true, beq_iff_eq] using hc
      have hnone : expr (c :: cs) = none := by
        rcases hblank with rfl | rfl
        · rw [expr, Parse.operand, atom.eq_def]
          simp [isWordChar]
        · rw [expr, Parse.operand, atom.eq_def]
          simp [isWordChar]
      rw [hchars, hnone] at hread
      cases hread

end Parse

-- The tree of a printed expression. The blanks in front of a line mean nothing.
def Expr.decode (text : String) : Option (Expr Unit) :=
  match Parse.expr (dropMargins true text.toList) with
  | some (node, []) => some node.read
  | _ => none

variable {α β : Type}

theorem Expr.decode_text_eq {e : Expr α} (he : e.wellFormed isWord = true) (o : Indentation) :
    decode (e.text o) = some e.norm := by
  have hreads : Parse.Reads e.node := Parse.reads_node (fun _ h => h) he
  have hlines : dropMargins true (e.text o).toList = e.node.chars :=
    Command.dropMargins_text (e.isInline_node (fun _ h => h) he) hreads.starts_isBlank
  have hexpr : Parse.expr e.node.chars = some (e.node, []) := by
    simpa using hreads.whole Parse.ends_nil
  rw [decode, hlines, hexpr]
  exact congrArg some e.read_node

-- Printed expressions can be decoded, so the text of an expression says everything but what
-- rendering forgets.
theorem decoding_inverts_printing :
    (∀ (e : Expr α) (o : Indentation), e.wellFormed isWord = true →
      Expr.decode (e.text o) = some e.norm) ∧
    (∀ (e : Expr α) (e' : Expr β) (o : Indentation), e.wellFormed isWord = true →
      e'.wellFormed isWord = true → (e.text o = e'.text o ↔ e.norm = e'.norm)) := by
  refine ⟨fun e o he => Expr.decode_text_eq he o, fun e e' o he he' => ⟨fun h => ?_, fun h => ?_⟩⟩
  · have hdecode := Expr.decode_text_eq he o
    rw [h, Expr.decode_text_eq he' o] at hdecode
    exact (Option.some.inj hdecode).symm
  · have hnode : e.node = e'.node := Expr.node_eq_iff.mpr h
    have htext : Passage.text o (.expr e.node) = Passage.text o (.expr e'.node) := by rw [hnode]
    exact htext

-- An operator that looks like half of a ternary, a signed base, a double without a literal,
-- and quotes inside quotes.
def crowdedExpr : Expr Nat :=
  .conditional (.binary (.variable "a" 1) "?" (.literal (.double ⟨0x7ff8000000000000⟩)))
    (.loop "x" (.literal (.int (-5))) (.property (.variable "x" 2) "e3"))
    (.method (.inline "not a word" none (.literal (.string "\" : \n"))) "map"
      [⟨some "by", .array [.literal (.double ⟨0xfff0000000000000⟩), .literal (.bool true)]⟩])

theorem decoding_inverts_printing_crowded :
    crowdedExpr.wellFormed isWord = true ∧
    Expr.decode (crowdedExpr.text .tabs) = some crowdedExpr.norm ∧
    (crowdedExpr.text .tabs = crowdedExpr.norm.text .tabs ↔
      crowdedExpr.norm = crowdedExpr.norm.norm) := by
  have hwell : crowdedExpr.wellFormed isWord = true := by decide +kernel
  have hnorm : crowdedExpr.norm.wellFormed isWord = true := by decide +kernel
  have hall := decoding_inverts_printing (α := Nat) (β := Unit)
  exact ⟨hwell, hall.1 crowdedExpr .tabs hwell,
    hall.2 crowdedExpr crowdedExpr.norm .tabs hwell hnorm⟩

end SwiftSource
