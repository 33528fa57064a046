import SwiftSource.Proofs.Layout.Flat
import SwiftSource.Proofs.Part.Separated
import SwiftSource.Proofs.Render.Reading
import SwiftSource.Proofs.Tree.WellFormed

namespace SwiftSource

open Double (Numeral)

-- Printed trees break a line only where a block does.

theorem newline_notMem_word {w : String} (hw : isWord w = true) : '\n' ∉ w.toList := by
  intro hmem
  exact absurd ((isWord_iff.mp hw).2.1 _ hmem) (by decide)

theorem newline_notMem_operator {op : String} (hop : isOperator op = true) : '\n' ∉ op.toList := by
  intro hmem
  exact absurd ((isOperator_iff.mp hop).2 _ hmem) (by decide)

-- What numbers are written with.
def isNumeric (c : Char) : Bool := c.isDigit || c == '.' || c == 'e' || c == '-'

theorem isNumeric_of_digits {ds : List Char} (h : ∀ c ∈ ds, c.isDigit = true) :
    ∀ c ∈ ds, isNumeric c = true := by
  intro c hc
  simp [isNumeric, h c hc]

theorem Double.Numeral.IsWritten.isNumeric_of_mem {n : Numeral} (hn : n.IsWritten) :
    ∀ c ∈ n.chars, isNumeric c = true := by
  have hmarked {mark : Char} {part : List Char} (hmark : isNumeric mark = true)
      (hpart : ∀ c ∈ part, isNumeric c = true) :
      ∀ c ∈ Numeral.marked mark part, isNumeric c = true := by
    unfold Numeral.marked
    split
    · simp
    · exact List.forall_mem_cons.mpr ⟨hmark, hpart⟩
  have hpower : ∀ c ∈ n.power, isNumeric c = true := by
    rcases hn.power with h | ⟨ds, -, hds, h | h⟩
    · simp [h]
    · rw [h]
      exact isNumeric_of_digits hds
    · rw [h]
      exact List.forall_mem_cons.mpr ⟨rfl, isNumeric_of_digits hds⟩
  rw [Numeral.chars, List.forall_mem_append, List.forall_mem_append]
  exact ⟨isNumeric_of_digits hn.whole, hmarked rfl (isNumeric_of_digits hn.fraction),
    hmarked rfl hpower⟩

theorem isNumeric_of_mem_signedNumeral {x : Double} {m : Double.Magnitude}
    (h : x.kind = .finite m) :
    ∀ c ∈ (Double.signedNumeral x.isNegative m).toList, isNumeric c = true := by
  obtain ⟨n, hn, -, hchars, -⟩ := Double.Magnitude.exists_numeral (Double.kind_finite h).1
  have hnumeral : ∀ c ∈ m.numeral, isNumeric c = true := hchars ▸ hn.isNumeric_of_mem
  cases x.isNegative with
  | false => simpa [Double.signedNumeral] using hnumeral
  | true => simpa [Double.signedNumeral] using ⟨rfl, hnumeral⟩

theorem isNumeric_of_mem_toString (k : Int) : ∀ c ∈ (toString k).toList, isNumeric c = true := by
  have hdigits (n : Nat) : ∀ c ∈ Nat.toDigits 10 n, isNumeric c = true :=
    isNumeric_of_digits fun _ => Parse.isDigit_of_mem_toDigits
  rcases Int.lt_or_le k 0 with hk | hk
  · rw [Parse.toList_toString_of_neg hk]
    exact List.forall_mem_cons.mpr ⟨rfl, hdigits _⟩
  · rw [Parse.toList_toString_of_nonneg hk]
    exact hdigits _

theorem newline_notMem_signedNumeral {x : Double} {m : Double.Magnitude} (h : x.kind = .finite m) :
    '\n' ∉ (Double.signedNumeral x.isNegative m).toList := by
  intro hmem
  exact absurd (isNumeric_of_mem_signedNumeral h _ hmem) (by decide)

theorem newline_notMem_toString (k : Int) : '\n' ∉ (toString k).toList := by
  intro hmem
  exact absurd (isNumeric_of_mem_toString k _ hmem) (by decide)

theorem newline_notMem_escapeChar (c : Char) : '\n' ∉ Text.escapeChar Text.isControl c := by
  unfold Text.escapeChar
  split_ifs with h1 h2 h3 h4 h5 h6 h7
  · simp
  · simp
  · simp
  · simp
  · simp
  · simp
  · have hdigits : '\n' ∉ Nat.toDigits 16 c.toNat := by
      intro hmem
      exact absurd ((Parse.hexValue_toDigits c.toNat).2 _ hmem) (by decide)
    simp [Text.codePoint, hdigits]
  · simp [Ne.symm h3]

theorem newline_notMem_stringLiteral (text : String) :
    '\n' ∉ (Text.stringLiteral text).toList := by
  have hescape : '\n' ∉ Text.escape Text.isControl text.toList := by
    intro hmem
    obtain ⟨c, -, hc⟩ := List.mem_flatMap.mp hmem
    exact newline_notMem_escapeChar c hc
  simp [Text.stringLiteral, Text.quote, hescape]

-- A node all of whose commands stay on the line.
def ExprNode.IsInline (node : ExprNode) : Prop :=
  ∀ command ∈ Print.expr node, command.Inline

namespace ExprNode

theorem IsInline.groupIf {node : ExprNode} (needed : Bool) (h : node.IsInline) :
    (node.groupIf needed).IsInline := by
  unfold ExprNode.groupIf
  split
  · simp only [IsInline, Print.expr, List.cons_append, List.forall_mem_cons,
      List.forall_mem_append]
    exact ⟨by simp, h, by simp⟩
  · exact h

theorem isInline_float {x : Double} {m : Double.Magnitude} (h : x.kind = .finite m) :
    (ExprNode.float (Double.signedNumeral x.isNegative m)).IsInline := by
  simpa [IsInline, Print.expr] using newline_notMem_signedNumeral h

theorem isInline_reference {name : String} (hname : isWord name = true) :
    (ExprNode.reference name).IsInline := by
  simpa [IsInline, Print.expr] using newline_notMem_word hname

theorem isInline_member {base : ExprNode} (hbase : base.IsInline) {name : String}
    (hname : isWord name = true) : (ExprNode.member base name).IsInline := by
  have hword := newline_notMem_word hname
  simp only [IsInline, Print.expr, List.forall_mem_append]
  exact ⟨hbase, by simp [hword]⟩

theorem isInline_call {callee : ExprNode} (hcallee : callee.IsInline)
    {entries : List (Separated (Argument ExprNode))}
    (hentries : ∀ command ∈ Print.argumentList entries, command.Inline) :
    (ExprNode.call callee entries none).IsInline := by
  have hprint : Print.expr (.call callee entries none) =
      Print.expr callee ++ ([.write "("] ++ (Print.argumentList entries ++ [.write ")"])) := by
    simp [Print.expr, Print.trailingClosure]
  simp only [IsInline, hprint, List.forall_mem_append]
  exact ⟨hcallee, by simp, hentries, by simp⟩

theorem isInline_forEach {base body : ExprNode} (hbase : base.IsInline) {element : String}
    (helement : isWord element = true) (hbody : body.IsInline) :
    (ExprNode.forEach base element body).IsInline := by
  have hword := newline_notMem_word helement
  have hprint : Print.expr (.forEach base element body) =
      Print.expr base ++
        ([.write ".", .write "forEach", .write " ", .write (openBrace ++ " "), .write element,
          .write " in "] ++ (Print.expr body ++ [.write " ", .write closeBrace])) := by
    simp [ExprNode.forEach, separate, Print.expr, Print.trailingClosure, Print.closureBody,
      Print.inlineBlock, Print.names, Print.comma, Print.items, Print.item]
  simp only [IsInline, hprint, List.forall_mem_append]
  exact ⟨hbase, by simp [hword], hbody, by simp⟩

end ExprNode

theorem Double.isInline_node (x : Double) : x.node.IsInline := by
  rcases x.node_cases with ⟨-, hnode⟩ | ⟨-, -, hnode⟩ | ⟨-, -, hnode⟩ | ⟨m, hkind, hnode⟩
  · simp [hnode, ExprNode.IsInline, Print.expr]
  · simp [hnode, ExprNode.IsInline, Print.expr]
  · simp [hnode, ExprNode.IsInline, Print.expr]
  · rw [hnode]
    exact ExprNode.isInline_float hkind

theorem Literal.isInline_node (l : Literal) : l.node.IsInline := by
  cases l with
  | int value => simpa [ExprNode.IsInline, Print.expr, Literal.node] using newline_notMem_toString _
  | double x => exact x.isInline_node
  | string value =>
      simpa [ExprNode.IsInline, Print.expr, Literal.node] using newline_notMem_stringLiteral value
  | bool value => cases value <;> simp [ExprNode.IsInline, Print.expr, Literal.node]
  | nil => simp [ExprNode.IsInline, Print.expr, Literal.node]

variable {α : Type} {isName : String → Bool}

theorem inline_comma (follows : Bool) : ∀ command ∈ Print.comma follows, command.Inline := by
  cases follows <;> simp [Print.comma]

theorem inline_argumentList {entries : List (Separated (Argument ExprNode))}
    (h : ∀ entry ∈ entries, (∀ l ∈ entry.element.label, isWord l = true) ∧
      entry.element.value.IsInline) :
    ∀ command ∈ Print.argumentList entries, command.Inline := by
  induction entries with
  | nil => simp [Print.argumentList]
  | cons entry entries ih =>
      obtain ⟨⟨label, value⟩, follows⟩ := entry
      obtain ⟨hlabel, hvalue⟩ := h _ List.mem_cons_self
      have hrest := ih fun entry hentry => h entry (List.mem_cons_of_mem _ hentry)
      have hlabel : ∀ command ∈ Print.argumentLabel label, command.Inline := by
        cases label with
        | none => simp [Print.argumentLabel]
        | some l => simpa [Print.argumentLabel] using newline_notMem_word (hlabel l rfl)
      simp only [Print.argumentList, Print.argument, List.forall_mem_append]
      exact ⟨⟨⟨hlabel, hvalue⟩, inline_comma follows⟩, hrest⟩

theorem inline_elementList {elements : List (Separated ExprNode)}
    (h : ∀ entry ∈ elements, entry.element.IsInline) :
    ∀ command ∈ Print.elementList elements, command.Inline := by
  induction elements with
  | nil => simp [Print.elementList]
  | cons entry elements ih =>
      have hvalue := h _ List.mem_cons_self
      have hrest := ih fun entry hentry => h entry (List.mem_cons_of_mem _ hentry)
      simp only [Print.elementList, List.forall_mem_append]
      exact ⟨⟨hvalue, inline_comma entry.comma⟩, hrest⟩

theorem Expr.isInline_node (hname : ∀ w, isName w = true → isWord w = true) {e : Expr α}
    (he : e.wellFormed isName = true) : e.node.IsInline := by
  have harguments {arguments : List (Argument (Expr α))}
      (h : ∀ a ∈ arguments, (∀ l ∈ a.label, isWord l = true) ∧ a.value.node.IsInline) :
      ∀ command ∈ Print.argumentList
        (separate (arguments.map fun a => Argument.mk a.label a.value.node)), command.Inline := by
    refine inline_argumentList (forall_mem_separate (p := fun a : Argument ExprNode =>
      (∀ l ∈ a.label, isWord l = true) ∧ a.value.IsInline) ?_)
    simpa using h
  induction e using Expr.induction with
  | literal value => exact value.isInline_node
  | reference name payload => exact ExprNode.isInline_reference (hname name he)
  | conditional condition thenBranch elseBranch hc ht hf =>
      simp only [wellFormed, Bool.and_eq_true] at he
      simp only [node_conditional, ExprNode.IsInline, Print.expr, List.forall_mem_append]
      exact ⟨⟨⟨⟨(hc he.1.1).groupIf _, by simp⟩, (ht he.1.2).groupIf _⟩, by simp⟩,
        (hf he.2).groupIf _⟩
  | loop element collection body hc hb =>
      simp only [wellFormed, Bool.and_eq_true] at he
      exact ExprNode.isInline_forEach ((hc he.1.2).groupIf _) (hname element he.1.1) (hb he.2)
  | call name arguments ih =>
      simp only [wellFormed, Bool.and_eq_true, wellFormedArguments_iff] at he
      have hlist := harguments fun a ha =>
        ⟨fun l hl => hname l ((he.2 a ha).1 l hl), ih a ha (he.2 a ha).2⟩
      rw [node_call]
      exact ExprNode.isInline_call (ExprNode.isInline_reference (hname name he.1)) hlist
  | method base name arguments hb ih =>
      simp only [wellFormed, Bool.and_eq_true, wellFormedArguments_iff] at he
      have hlist := harguments fun a ha =>
        ⟨fun l hl => hname l ((he.2 a ha).1 l hl), ih a ha (he.2 a ha).2⟩
      rw [node_method]
      exact ExprNode.isInline_call
        (ExprNode.isInline_member ((hb he.1.1).groupIf _) (hname name he.1.2)) hlist
  | binary left operator right hl hr =>
      simp only [wellFormed, Bool.and_eq_true] at he
      have hop := newline_notMem_operator he.1.2
      simp only [node_binary, ExprNode.IsInline, Print.expr, List.forall_mem_append]
      exact ⟨⟨(hl he.1.1).groupIf _, by simp [hop]⟩, (hr he.2).groupIf _⟩
  | property base name hb =>
      simp only [wellFormed, Bool.and_eq_true] at he
      exact ExprNode.isInline_member ((hb he.1).groupIf _) (hname name he.2)
  | inline name type initializer ih => exact ih he
  | array elements ih =>
      simp only [wellFormed, wellFormedElements_iff] at he
      have hnodes : ∀ n ∈ elements.map node, n.IsInline := by
        simpa using fun e hmem => ih e hmem (he e hmem)
      rw [node_array]
      simp only [ExprNode.IsInline, Print.expr, List.cons_append, List.forall_mem_cons,
        List.forall_mem_append]
      exact ⟨by simp, inline_elementList (forall_mem_separate hnodes), by simp⟩

end SwiftSource
