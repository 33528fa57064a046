import SwiftSource.Proofs.Parse.ItemReads

namespace SwiftSource

open Command (flatList flatItems)

namespace Parse

-- A declaration is found again behind its modifiers and its keyword.

def declKeywords : List String := ["let", "var", "func", "init", "extension", "struct"]

theorem item_of_declaration {mods : Modifiers} {w : String} (hw : w ∈ declKeywords)
    {rest tail : List Char} (hrest : starts isWordChar rest = false) {node : DeclNode}
    (h : declaration mods w rest = some (node, tail)) :
    item (flatList (Print.modifiers mods) ++ (w.toList ++ rest)) = some (.decl node, tail) := by
  have hwords : ∀ w ∈ declKeywords, isWord w = true ∧ w ∈ declarationWords := by decide
  have hstatements : ∀ w ∈ declarationWords, isWord w = true ∧ w ∉ statementWords := by decide
  have hclash : ∀ w ∈ declKeywords, ∀ m ∈ ["public", "fileprivate", "private", "static"],
      clashes (spellModifier m) w.toList = true := by decide
  have hmods := modifiers_append mods
    fun m hm => expect_of_clashes (hclash w hw m hm) rest
  -- the first word is a modifier, or the keyword if there is none
  have hleading : leading (flatList (Print.modifiers mods) ++ (w.toList ++ rest)) ∈
      declarationWords := by
    rw [flatList_modifiers]
    cases hkeywords : mods.keywords with
    | nil =>
        rw [List.flatMap_nil, List.nil_append,
          leading_append (isWord_iff.mp (hwords w hw).1).2.1 hrest]
        exact (hwords w hw).2
    | cons m ms =>
        have hm : m ∈ ["public", "fileprivate", "private", "static"] :=
          mods.keywords_sublist.subset (by simp [hkeywords])
        have hmwords : ∀ m ∈ ["public", "fileprivate", "private", "static"],
            isWord m = true ∧ m ∈ declarationWords := by decide
        have htext : (m :: ms).flatMap spellModifier ++ (w.toList ++ rest) =
            m.toList ++ ' ' :: (ms.flatMap spellModifier ++ (w.toList ++ rest)) := by
          simp [spellModifier]
        rw [htext, leading_append (isWord_iff.mp (hmwords m hm).1).2.1 rfl]
        exact (hmwords m hm).2
  have := shorter_append_self (isWord_iff.mp (hwords w hw).1).1 rest
  rw [item, hmods]
  simp only [word_isWord (hwords w hw).1 hrest]
  simp [hleading, (hstatements _ hleading).2, h]

theorem members?_map (members : List DeclNode) :
    members? (members.map .decl) = some members := by
  induction members with
  | nil => rfl
  | cons member members ih => simp [members?, ih]

theorem items_map_decl (members : List DeclNode) :
    Print.items (members.map .decl) = Print.members members := by
  induction members with
  | nil => rfl
  | cons member members ih => simp [Print.items, Print.members, Print.item, ih]

section Bindings

variable {mods : Modifiers} {kind : Binding} {name : String} {type : Option String}

-- The declared name and its type, in front of whatever follows on the line.
theorem binding_head (hname : isWord name = true) {tail : List Char}
    (htail : starts (fun c => c == ' ' || c == '\n') tail = true) :
    word (name.toList ++ (markedChars [':', ' '] type ++ tail)) =
      some (name, markedChars [':', ' '] type ++ tail) := by
  refine word_isWord hname ?_
  cases type with
  | some type => rfl
  | none =>
      cases tail with
      | nil => cases htail
      | cons c tail =>
          have hc : c = ' ' ∨ c = '\n' := by simpa using htail
          rcases hc with rfl | rfl <;> rfl

theorem binding_type (htype : ∀ t ∈ type, isTypeText t = true) {tail : List Char}
    (htail : starts (fun c => c == ' ' || c == '\n') tail = true) :
    marked [':', ' '] (markedChars [':', ' '] type ++ tail) = some (type, tail) := by
  cases tail with
  | nil => cases htail
  | cons c tail =>
      have hc : c = ' ' ∨ c = '\n' := by simpa using htail
      refine marked_append htype ?_ ?_
      · rcases hc with rfl | rfl <;> rfl
      · rcases hc with rfl | rfl <;> rfl

theorem chars_variable (value : Option ExprNode) (entries : Option (List (Accessor ItemNode))) :
    (ItemNode.decl (.variable mods kind name type value entries)).chars =
      flatList (Print.modifiers mods) ++ (kind.keyword.toList ++ ' ' :: (name.toList ++
        (markedChars [':', ' '] type ++
          (flatList (Print.initialValue value) ++ flatList (Print.accessorClause entries))))) := by
  simp [ItemNode.chars, Print.item, Print.decl, flatList, flat_write, flatList_typeClause]

theorem declaration_binding (mods : Modifiers) (kind : Binding) (cs : List Char) :
    declaration mods kind.keyword cs = binding mods kind cs := by
  rw [declaration]
  cases kind <;> simp [Binding.keyword]

theorem item_of_binding {value : Option ExprNode} {entries : Option (List (Accessor ItemNode))}
    {rest : List Char}
    (h : binding mods kind (' ' :: (name.toList ++ (markedChars [':', ' '] type ++
        (flatList (Print.initialValue value) ++
          (flatList (Print.accessorClause entries) ++ '\n' :: rest))))) =
      some (.variable mods kind name type value entries, '\n' :: rest)) :
    item ((ItemNode.decl (.variable mods kind name type value entries)).chars ++ '\n' :: rest) =
      some (.decl (.variable mods kind name type value entries), '\n' :: rest) := by
  simp only [chars_variable, List.append_assoc, List.cons_append]
  refine item_of_declaration ?_ rfl ?_
  · cases kind <;> decide
  · rw [declaration_binding]
    exact h

theorem reads_stored (hname : isWord name = true) (htype : ∀ t ∈ type, isTypeText t = true)
    {value : Option ExprNode} (hvalue : ∀ node ∈ value, Reads node) :
    ItemReads (.decl (.variable mods kind name type value none)) := by
  intro rest
  refine item_of_binding ?_
  have hnone : flatList (Print.accessorClause none) = [] := rfl
  rw [hnone, List.nil_append, binding]
  cases value with
  | none =>
      have hempty : flatList (Print.initialValue none) = [] := rfl
      have htail : starts (fun c => c == ' ' || c == '\n') ('\n' :: rest) = true := rfl
      rw [hempty, List.nil_append]
      simp [expect, binding_head hname htail, binding_type htype htail]
  | some value =>
      have hread := (hvalue value rfl).whole (ends_cons (c := '\n') (by simp) rest)
      have hinitial : flatList (Print.initialValue (some value)) ++ '\n' :: rest =
          ' ' :: '=' :: ' ' :: (value.chars ++ '\n' :: rest) := by
        simp [Print.initialValue, flatList, flat_write, ExprNode.chars]
      have htail : starts (fun c => c == ' ' || c == '\n')
          (' ' :: '=' :: ' ' :: (value.chars ++ '\n' :: rest)) = true := rfl
      rw [hinitial]
      simp [expect, binding_head hname htail, binding_type htype htail, hread]

-- A getter, and possibly a setter behind it.
def accessorList (getter : List ItemNode) (setter : Option (String × List ItemNode)) :
    List (Accessor ItemNode) :=
  ⟨.get, none, getter⟩ :: (setter.map fun s => ⟨.set, some s.1, s.2⟩).toList

theorem accessors_append {getter : List ItemNode} (hgetter : ∀ node ∈ getter, ItemReads node)
    {setter : Option (String × List ItemNode)}
    (hsetter : ∀ s ∈ setter, isWord s.1 = true ∧ ∀ node ∈ s.2, ItemReads node)
    (rest : List Char) :
    accessors ((Command.block (Print.accessors (accessorList getter setter))).flat ++ rest) =
      some (accessorList getter setter, rest) := by
  cases setter with
  | none =>
      have hget := block_append hgetter ('\n' :: '}' :: rest)
      have htext : (Command.block (Print.accessors (accessorList getter none))).flat ++ rest =
          '{' :: '\n' :: 'g' :: 'e' :: 't' :: ' ' ::
            ((Command.block (Print.items getter)).flat ++ '\n' :: '}' :: rest) := by
        simp [accessorList, Print.accessors, Print.accessor, Print.accessorKeyword,
          Print.accessorParameter, Command.flat, flatItems, flatList]
      rw [htext, accessors]
      simp [expect, hget, accessorList]
  | some setter =>
      obtain ⟨name, body⟩ := setter
      obtain ⟨hname, hbody⟩ := hsetter _ rfl
      have hset := block_append hbody ('\n' :: '}' :: rest)
      let tail := ')' :: ' ' :: ((Command.block (Print.items body)).flat ++ '\n' :: '}' :: rest)
      have hget := block_append hgetter ('\n' :: 's' :: 'e' :: 't' :: '(' :: (name.toList ++ tail))
      have hword : word (name.toList ++ tail) = some (name, tail) := word_isWord hname rfl
      have htext :
          (Command.block (Print.accessors (accessorList getter (some (name, body))))).flat ++ rest =
            '{' :: '\n' :: 'g' :: 'e' :: 't' :: ' ' :: ((Command.block (Print.items getter)).flat ++
              '\n' :: 's' :: 'e' :: 't' :: '(' :: (name.toList ++ tail)) := by
        simp [tail, accessorList, Print.accessors, Print.accessor, Print.accessorKeyword,
          Print.accessorParameter, Command.flat, flatItems, flatList]
      rw [htext, accessors]
      simp [expect, hget, hword, tail, hset, accessorList]

theorem reads_computed (hname : isWord name = true) (htype : ∀ t ∈ type, isTypeText t = true)
    {getter : List ItemNode} (hgetter : ∀ node ∈ getter, ItemReads node)
    {setter : Option (String × List ItemNode)}
    (hsetter : ∀ s ∈ setter, isWord s.1 = true ∧ ∀ node ∈ s.2, ItemReads node) :
    ItemReads (.decl (.variable mods kind name type none (some (accessorList getter setter)))) := by
  intro rest
  refine item_of_binding ?_
  let lines := (Command.block (Print.accessors (accessorList getter setter))).flat ++ '\n' :: rest
  have hread : accessors lines = some (accessorList getter setter, '\n' :: rest) :=
    accessors_append hgetter hsetter ('\n' :: rest)
  have hempty : flatList (Print.initialValue none) = [] := rfl
  have hclause : flatList (Print.accessorClause (some (accessorList getter setter))) ++
      '\n' :: rest = ' ' :: lines := by
    simp [lines, Print.accessorClause, flatList, flat_write]
  have htail : starts (fun c => c == ' ' || c == '\n') (' ' :: lines) = true := rfl
  have hnovalue : expect [' ', '=', ' '] (' ' :: lines) = none := rfl
  rw [hempty, List.nil_append, hclause, binding]
  simp [binding_head hname htail, binding_type htype htail, hnovalue, hread]

end Bindings

section Types

variable {mods : Modifiers} {name : String} {entries : List Parameter} {body : List ItemNode}

-- Neither a return type nor a body is taken for an effect.
theorem expect_effect_none (type : Option String) (body : List ItemNode) (rest : List Char) :
    ∀ w ∈ ["async", "throws"], expect (spellEffect w) (markedChars [' ', '-', '>', ' '] type ++
      ' ' :: ((Command.block (Print.items body)).flat ++ rest)) = none := by
  intro w hw
  simp only [List.mem_cons, List.not_mem_nil, or_false] at hw
  cases type <;> rcases hw with rfl | rfl <;> rfl

theorem reads_function (hname : isWord name = true) (hentries : ∀ p ∈ entries, p.wellFormed = true)
    (effs : Effects) {type : Option String} (htype : ∀ t ∈ type, isTypeText t = true)
    (hbody : ∀ node ∈ body, ItemReads node) :
    ItemReads (.decl (.function mods name (separate entries) effs type body)) := by
  intro rest
  let lines := (Command.block (Print.items body)).flat ++ '\n' :: rest
  let tail := markedChars [' ', '-', '>', ' '] type ++ ' ' :: lines
  let head := flatList (Print.parameters (separate entries)) ++
    (flatList (Print.effects effs) ++ tail)
  have htext : (ItemNode.decl (.function mods name (separate entries) effs type body)).chars ++
      '\n' :: rest =
      flatList (Print.modifiers mods) ++ ("func".toList ++ ' ' :: (name.toList ++ head)) := by
    simp [head, tail, lines, ItemNode.chars, Print.item, Print.decl, flatList, flat_write,
      flatList_returnClause]
  have hword : word (name.toList ++ head) = some (name, head) := word_isWord hname rfl
  have hsignature : signature head = some ((separate entries, effs), tail) :=
    signature_append hentries effs (expect_effect_none type body _)
  have hreturn : marked [' ', '-', '>', ' '] tail = some (type, ' ' :: lines) :=
    marked_append htype rfl rfl
  have hblock : block lines = some (body, '\n' :: rest) := block_append hbody _
  rw [htext]
  refine item_of_declaration (by decide) rfl ?_
  rw [declaration, if_neg (by decide), if_neg (by decide), if_pos rfl, function]
  simp [hword, hsignature, hreturn, hblock]

theorem reads_initializer (hentries : ∀ p ∈ entries, p.wellFormed = true) (effs : Effects)
    (hbody : ∀ node ∈ body, ItemReads node) :
    ItemReads (.decl (.initializer mods (separate entries) effs body)) := by
  intro rest
  let lines := (Command.block (Print.items body)).flat ++ '\n' :: rest
  let head := flatList (Print.parameters (separate entries)) ++
    (flatList (Print.effects effs) ++ ' ' :: lines)
  have htext : (ItemNode.decl (.initializer mods (separate entries) effs body)).chars ++
      '\n' :: rest = flatList (Print.modifiers mods) ++ ("init".toList ++ head) := by
    simp [head, lines, ItemNode.chars, Print.item, Print.decl, flatList, flat_write]
  have hsignature : signature head = some ((separate entries, effs), ' ' :: lines) :=
    signature_append hentries effs (expect_effect_none none body _)
  have hblock : block lines = some (body, '\n' :: rest) := block_append hbody _
  rw [htext]
  refine item_of_declaration (by decide) rfl ?_
  rw [declaration, if_neg (by decide), if_neg (by decide), if_neg (by decide), if_pos rfl,
    initializer]
  simp [hsignature, hblock]

variable {conformances : List String} {members : List DeclNode}

theorem block_members (h : ∀ member ∈ members, ItemReads (.decl member)) (rest : List Char) :
    block ((Command.block (Print.members members)).flat ++ rest) =
      some (members.map .decl, rest) := by
  rw [← items_map_decl]
  exact block_append (by simpa using h) rest

theorem reads_extension {type : String} (htype : isTypeText type = true)
    (hconformances : ∀ t ∈ conformances, isTypeText t = true)
    (hmembers : ∀ member ∈ members, ItemReads (.decl member)) :
    ItemReads (.decl (.extension type (inheritanceClause? conformances) members)) := by
  intro rest
  let lines := (Command.block (Print.members members)).flat ++ '\n' :: rest
  let clause := flatList (Print.inheritanceClause (inheritanceClause? conformances)) ++
    ' ' :: lines
  have htext : (ItemNode.decl (.extension type (inheritanceClause? conformances) members)).chars ++
      '\n' :: rest = flatList (Print.modifiers .empty) ++
        ("extension".toList ++ ' ' :: (type.toList ++ clause)) := by
    have hmods : flatList (Print.modifiers .empty) = [] := by decide
    simp [hmods, clause, lines, ItemNode.chars, Print.item, Print.decl, flatList, flat_write]
  have hstart : starts isTypeChar clause = false := by cases conformances <;> rfl
  have htypeRead : typeText (type.toList ++ clause) = some (type, clause) :=
    typeText_isTypeText htype hstart
  have hclause : inheritance clause = some (inheritanceClause? conformances, lines) :=
    inheritance_append hconformances lines
  have hblock : block lines = some (members.map .decl, '\n' :: rest) := block_members hmembers _
  rw [htext]
  refine item_of_declaration (by decide) rfl ?_
  rw [declaration, if_neg (by decide), if_neg (by decide), if_neg (by decide),
    if_neg (by decide), if_pos rfl, extension]
  simp [htypeRead, hclause, hblock, members?_map]

theorem reads_struct (hname : isWord name = true)
    (hconformances : ∀ t ∈ conformances, isTypeText t = true)
    (hmembers : ∀ member ∈ members, ItemReads (.decl member)) :
    ItemReads (.decl (.struct mods name (inheritanceClause? conformances) members)) := by
  intro rest
  let lines := (Command.block (Print.members members)).flat ++ '\n' :: rest
  let clause := flatList (Print.inheritanceClause (inheritanceClause? conformances)) ++
    ' ' :: lines
  have htext : (ItemNode.decl (.struct mods name (inheritanceClause? conformances)
      members)).chars ++ '\n' :: rest =
      flatList (Print.modifiers mods) ++ ("struct".toList ++ ' ' :: (name.toList ++ clause)) := by
    simp [clause, lines, ItemNode.chars, Print.item, Print.decl, flatList, flat_write]
  have hstart : starts isWordChar clause = false := by cases conformances <;> rfl
  have hword : word (name.toList ++ clause) = some (name, clause) := word_isWord hname hstart
  have hclause : inheritance clause = some (inheritanceClause? conformances, lines) :=
    inheritance_append hconformances lines
  have hblock : block lines = some (members.map .decl, '\n' :: rest) := block_members hmembers _
  rw [htext]
  refine item_of_declaration (by decide) rfl ?_
  rw [declaration, if_neg (by decide), if_neg (by decide), if_neg (by decide),
    if_neg (by decide), if_neg (by decide), struct]
  simp [hword, hclause, hblock, members?_map]

end Types

end Parse

end SwiftSource
