import SwiftSource.Proofs.Parse.Leading

namespace SwiftSource

open Command (flatList flatItems)

namespace Parse

-- The parser finds an item again in front of the next line.
def ItemReads (node : ItemNode) : Prop :=
  ∀ rest, item (node.chars ++ '\n' :: rest) = some (node, '\n' :: rest)

-- Nothing that begins with a character of no expression is an item.
theorem item_eq_none {c : Char} (hc : c ∈ ['}', '\n', ' ', '\t']) (cs : List Char) :
    item (c :: cs) = none := by
  have hword : starts isWordChar (c :: cs) = false := by
    simp only [List.mem_cons, List.not_mem_nil, or_false] at hc
    rcases hc with rfl | rfl | rfl | rfl <;> rfl
  have hexpr : expr (c :: cs) = none := by
    simp only [List.mem_cons, List.not_mem_nil, or_false] at hc
    rw [expr, Parse.operand, atom.eq_def]
    rcases hc with rfl | rfl | rfl | rfl <;> simp [isWordChar]
  rw [item, leading_of_not_starts hword]
  simp [statementWords, declarationWords, hexpr]

theorem ItemReads.starts_eq_false {node : ItemNode} (h : ItemReads node) {p : Char → Bool}
    (hp : ∀ c, p c = true → c ∈ ['}', '\n', ' ', '\t']) (rest : List Char) :
    starts p (node.chars ++ '\n' :: rest) = false := by
  have hread := h rest
  cases hcs : node.chars ++ '\n' :: rest with
  | nil => rfl
  | cons c cs =>
      by_contra hc
      have hc : p c = true := by simpa using hc
      rw [hcs, item_eq_none (hp c hc)] at hread
      cases hread

theorem items_append {body : List ItemNode} (h : ∀ node ∈ body, ItemReads node)
    (rest : List Char) :
    items (flatItems (Print.items body) ++ '\n' :: '}' :: rest) = some (body, rest) := by
  induction body with
  | nil =>
      rw [items]
      simp [Print.items, flatItems, expect]
  | cons node body ih =>
      have hrest := ih fun x hx => h x (by simp [hx])
      -- the line behind the item is the next item or the closing brace
      obtain ⟨tail, htail⟩ : ∃ tail,
          flatItems (Print.items body) ++ '\n' :: '}' :: rest = '\n' :: tail := by
        cases body with
        | nil => exact ⟨_, rfl⟩
        | cons next body => exact ⟨_, rfl⟩
      have htext : flatItems (Print.items (node :: body)) ++ '\n' :: '}' :: rest =
          '\n' :: (node.chars ++ '\n' :: tail) := by
        rw [← htail]
        simp [Print.items, flatItems, ItemNode.chars]
      have hnode := h node (by simp)
      have hbrace : starts (· == '}') (node.chars ++ '\n' :: tail) = false :=
        hnode.starts_eq_false (by simp) tail
      have hopen : expect ['\n', '}'] ('\n' :: (node.chars ++ '\n' :: tail)) = none := by
        cases hcs : node.chars ++ '\n' :: tail with
        | nil => rfl
        | cons c cs =>
            rw [hcs] at hbrace
            have hc : '}' ≠ c := by
              rintro rfl
              simp at hbrace
            simp [expect, hc]
      rw [htail] at hrest
      rw [htext, items, hopen]
      simp [expect, hnode tail, hrest]

theorem block_append {body : List ItemNode} (h : ∀ node ∈ body, ItemReads node)
    (rest : List Char) :
    block ((Command.block (Print.items body)).flat ++ rest) = some (body, rest) := by
  have hitems := items_append h rest
  have htext : (Command.block (Print.items body)).flat ++ rest =
      '{' :: (flatItems (Print.items body) ++ '\n' :: '}' :: rest) := by simp [Command.flat]
  rw [htext, block]
  simp [hitems]

section Statements

theorem item_of_statement {w : String} (hw : w ∈ statementWords) {rest tail : List Char}
    (hrest : starts isWordChar rest = false) {node : StmtNode}
    (h : statement w rest = some (node, tail)) :
    item (w.toList ++ rest) = some (.stmt node, tail) := by
  have hwords : ∀ w ∈ statementWords, isWord w = true := by decide
  have hword := hwords w hw
  have := shorter_append_self (isWord_iff.mp hword).1 rest
  rw [item, leading_append (isWord_iff.mp hword).2.1 hrest, word_isWord hword hrest]
  simp [hw, h]

theorem reads_expression {node : ExprNode} (h : Reads node) (hleading : Unheaded node) :
    ItemReads (.expr node) := by
  intro rest
  have hread := h.whole (ends_cons (c := '\n') (by simp) rest)
  have hkeyword := hleading ('\n' :: rest) rfl
  simp only [keywords, List.mem_append, not_or] at hkeyword
  have hchars : (ItemNode.expr node).chars = node.chars := by
    simp [ItemNode.chars, ExprNode.chars, Print.item]
  rw [hchars, item, hread]
  simp [hkeyword.1.1, hkeyword.1.2]

variable {condition value : ExprNode} {body : List ItemNode}

theorem reads_guard (hcondition : Reads condition) (hbody : ∀ node ∈ body, ItemReads node) :
    ItemReads (.stmt (.guard condition body)) := by
  intro rest
  have hblock := block_append hbody ('\n' :: rest)
  have hread := hcondition.whole (ends_else ('l' :: 's' :: 'e' :: ' ' ::
    ((Command.block (Print.items body)).flat ++ '\n' :: rest)))
  simp only [ItemNode.chars_guard, List.append_assoc, List.cons_append]
  refine item_of_statement (by decide) rfl ?_
  rw [statement, if_pos rfl, guardStatement]
  simp [expect, hread, hblock]

theorem reads_branch (hcondition : Reads condition) (hbody : ∀ node ∈ body, ItemReads node)
    {elseBody : Option (List ItemNode)}
    (helse : ∀ other ∈ elseBody, ∀ node ∈ other, ItemReads node) :
    ItemReads (.stmt (.branch condition body elseBody)) := by
  intro rest
  have hblock := block_append hbody (flatList (Print.elseClause elseBody) ++ '\n' :: rest)
  obtain ⟨tail, htail⟩ := flat_block_append (Print.items body)
    (flatList (Print.elseClause elseBody) ++ '\n' :: rest)
  have hread := hcondition.whole (ends_block tail)
  rw [← htail] at hread
  simp only [ItemNode.chars_branch, List.append_assoc, List.cons_append]
  refine item_of_statement (by decide) rfl ?_
  rw [statement, if_neg (by decide), if_pos rfl]
  cases elseBody with
  | none =>
      have hempty : flatList (Print.elseClause none) = [] := rfl
      simp only [hempty, List.nil_append] at hread hblock ⊢
      rw [branchStatement]
      simp [expect, hread, hblock]
  | some other =>
      have hother := block_append (helse other rfl) ('\n' :: rest)
      simp only [ItemNode.flatList_elseClause, List.cons_append] at hread hblock ⊢
      rw [branchStatement]
      simp [expect, hread, hblock, hother]

theorem reads_returns {value : Option ExprNode} (h : ∀ node ∈ value, Reads node) :
    ItemReads (.stmt (.returns value)) := by
  intro rest
  cases value with
  | none =>
      have hchars : (ItemNode.stmt (.returns none)).chars = "return".toList := rfl
      rw [hchars]
      refine item_of_statement (by decide) rfl ?_
      rw [statement, if_neg (by decide), if_neg (by decide), if_pos rfl, returnStatement]
      simp [expect]
  | some value =>
      have hread := (h value rfl).whole (ends_cons (c := '\n') (by simp) rest)
      rw [ItemNode.chars_returns, List.append_assoc, List.cons_append]
      refine item_of_statement (by decide) rfl ?_
      rw [statement, if_neg (by decide), if_neg (by decide), if_pos rfl, returnStatement]
      simp [expect, hread]

theorem reads_throws (h : Reads value) : ItemReads (.stmt (.throws value)) := by
  intro rest
  have hread := h.whole (ends_cons (c := '\n') (by simp) rest)
  rw [ItemNode.chars_throws, List.append_assoc, List.cons_append]
  refine item_of_statement (by decide) rfl ?_
  rw [statement, if_neg (by decide), if_neg (by decide), if_neg (by decide), if_pos rfl,
    throwStatement]
  simp [expect, hread]

theorem reads_defer (hbody : ∀ node ∈ body, ItemReads node) : ItemReads (.stmt (.defer body)) := by
  intro rest
  have hblock := block_append hbody ('\n' :: rest)
  rw [ItemNode.chars_defer, List.append_assoc, List.cons_append]
  refine item_of_statement (by decide) rfl ?_
  rw [statement, if_neg (by decide), if_neg (by decide), if_neg (by decide),
    if_neg (by decide), deferStatement]
  simp [expect, hblock]

end Statements

end Parse

end SwiftSource
