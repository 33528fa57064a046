import SwiftSource.Proofs.Parse.Faithful

namespace SwiftSource

open Command (flatList flatItems)

variable {α β : Type}

namespace Parse

theorem reads_inline_node {e : Expr α} (he : e.wellFormed isIdentifier = true) :
    Reads e.node ∧ e.node.IsInline :=
  ⟨reads_node (fun _ => isWord_of_isIdentifier) he,
    e.isInline_node (fun _ => isWord_of_isIdentifier) he⟩

theorem reads_inline_option {value : Option (Expr α)}
    (h : value.all (Expr.wellFormed isIdentifier) = true) :
    ∀ node ∈ value.map Expr.node, Reads node ∧ node.IsInline := by
  intro node hnode
  obtain ⟨e, he, rfl⟩ := Option.mem_map.mp hnode
  exact reads_inline_node ((Option.all_eq_true _ _).mp h e he)

theorem faithful_stmt {s : Stmt α} (hs : s.wellFormed = true) : Faithful s.node := by
  induction s using Stmt.induction with
  | bind binding name type initializer =>
      simp only [Stmt.wellFormed, Bool.and_eq_true] at hs
      rw [Stmt.node_bind]
      exact faithful_stored (isWord_of_isIdentifier hs.1.1) ((Option.all_eq_true _ _).mp hs.1.2)
        (by simpa using reads_inline_node hs.2)
  | guard condition elseBody ih =>
      simp only [Stmt.wellFormed, Bool.and_eq_true, Stmt.wellFormedList_iff] at hs
      obtain ⟨hreads, hline⟩ := reads_inline_node hs.1
      rw [Stmt.node_guard]
      refine faithful_guard hreads.asCondition (hline.groupIf _) ?_
      simpa using fun s hmem => ih s hmem (hs.2 s hmem)
  | branch condition thenBody elseBody ht he =>
      simp only [Stmt.wellFormed, Bool.and_eq_true, Stmt.wellFormedList_iff,
        Stmt.wellFormedOption_iff] at hs
      obtain ⟨hreads, hline⟩ := reads_inline_node hs.1.1
      rw [Stmt.node_branch]
      refine faithful_branch hreads.asCondition (hline.groupIf _) ?_ ?_
      · simpa using fun s hmem => ht s hmem (hs.1.2 s hmem)
      · simpa using fun body hbody s hmem => he body hbody s hmem (hs.2 body hbody s hmem)
  | returns value =>
      rw [Stmt.node_returns]
      exact faithful_returns (reads_inline_option hs)
  | throws error =>
      obtain ⟨hreads, hline⟩ := reads_inline_node hs
      exact faithful_throws hreads hline
  | defer body ih =>
      simp only [Stmt.wellFormed, Stmt.wellFormedList_iff] at hs
      rw [Stmt.node_defer]
      exact faithful_defer (by simpa using fun s hmem => ih s hmem (hs s hmem))
  | expression value =>
      obtain ⟨hreads, hline⟩ := reads_inline_node hs
      exact faithful_expression hreads (unheaded_node hs) hline

theorem faithful_body {body : List (Stmt α)} (h : body.all Stmt.wellFormed = true) :
    ∀ node ∈ body.map Stmt.node, Faithful node := by
  intro node hnode
  obtain ⟨s, hs, rfl⟩ := List.mem_map.mp hnode
  exact faithful_stmt (List.all_eq_true.mp h s hs)

theorem accessors_eq_accessorList (d : ComputedDecl α) :
    d.accessors = accessorList (d.getter.map Stmt.node)
      (d.setter.map fun setter => (setter.parameter, setter.body.map Stmt.node)) := by
  cases hsetter : d.setter with
  | none => simp [ComputedDecl.accessors, accessorList, hsetter]
  | some setter => simp [ComputedDecl.accessors, accessorList, hsetter]

theorem faithful_decl {d : Decl α} (hd : d.wellFormed = true) : Faithful (.decl d.node) := by
  induction d using Decl.induction with
  | function d =>
      simp only [Decl.wellFormed, Bool.and_eq_true, List.all_eq_true] at hd
      obtain ⟨⟨⟨hname, hparameters⟩, htype⟩, hbody⟩ := hd
      rw [Decl.node_function]
      exact faithful_function (isWord_of_isIdentifier hname) hparameters _
        ((Option.all_eq_true _ _).mp htype) (faithful_body (List.all_eq_true.mpr hbody))
  | property d =>
      simp only [Decl.wellFormed, Bool.and_eq_true] at hd
      obtain ⟨⟨hname, htype⟩, hvalue⟩ := hd
      rw [Decl.node_property]
      exact faithful_stored (isWord_of_isIdentifier hname) ((Option.all_eq_true _ _).mp htype)
        (reads_inline_option hvalue)
  | computed d =>
      simp only [Decl.wellFormed, Bool.and_eq_true] at hd
      obtain ⟨⟨⟨hname, htype⟩, hgetter⟩, hsetter⟩ := hd
      rw [Decl.node_computed, accessors_eq_accessorList]
      refine faithful_computed (isWord_of_isIdentifier hname) (by simpa using htype)
        (faithful_body hgetter) ?_
      intro s hs
      obtain ⟨setter, hmem, rfl⟩ := Option.mem_map.mp hs
      rw [Option.mem_def.mp hmem, Option.all_some, Bool.and_eq_true] at hsetter
      exact ⟨isWord_of_isIdentifier hsetter.1, faithful_body hsetter.2⟩
  | extension d ih =>
      obtain ⟨type, conformances, members⟩ := d
      simp only [Decl.wellFormed, Bool.and_eq_true, Decl.wellFormedList_iff, List.all_eq_true] at hd
      obtain ⟨⟨htype, hconformances⟩, hmembers⟩ := hd
      rw [Decl.node_extension]
      refine faithful_extension htype hconformances ?_
      simpa using fun m hm => ih m hm (hmembers m hm)
  | struct d ih =>
      obtain ⟨access, name, conformances, members⟩ := d
      simp only [Decl.wellFormed, Bool.and_eq_true, Decl.wellFormedList_iff, List.all_eq_true] at hd
      obtain ⟨⟨hname, hconformances⟩, hmembers⟩ := hd
      rw [Decl.node_struct]
      refine faithful_struct (isWord_of_isIdentifier hname) hconformances ?_
      simpa using fun m hm => ih m hm (hmembers m hm)
  | initializer d =>
      simp only [Decl.wellFormed, Bool.and_eq_true, List.all_eq_true] at hd
      rw [Decl.node_initializer]
      exact faithful_initializer hd.1 _ (faithful_body (List.all_eq_true.mpr hd.2))

-- The items of a printed list. Their lines read like the inside of a block.
def itemsOfText (text : String) : Option (List ItemNode) :=
  match dropMargins true text.toList with
  | [] => some []
  | c :: cs => (items ('\n' :: c :: (cs ++ ['\n', '}']))).map Prod.fst

theorem itemsOfText_text {nodes : List ItemNode} (h : ∀ node ∈ nodes, Faithful node)
    (o : Indentation) : itemsOfText ((Passage.items nodes).text o) = some nodes := by
  have hlines : dropMargins true ((Passage.items nodes).text o).toList =
      (flatItems (Print.items nodes)).tail := by
    refine Command.dropMargins_lines ?_ ?_
    · rw [items_eq_map]
      simpa using fun node hnode => (h node hnode).reads.starts_isBlank
    · rw [items_eq_map]
      simpa using fun node hnode => (h node hnode).inline
  have hitems := items_append (fun node hnode => (h node hnode).reads) []
  rw [itemsOfText, hlines]
  cases nodes with
  | nil => rfl
  | cons node nodes =>
      have hchars : node.chars ≠ [] := by
        intro hnil
        have hstart := (h node (by simp)).reads.starts_eq_false (p := (· == '\n')) (by simp) []
        rw [hnil] at hstart
        cases hstart
      obtain ⟨c, cs, hcs⟩ := List.exists_cons_of_ne_nil hchars
      rw [ItemNode.chars] at hcs
      simp only [Print.items, flatItems, hcs, List.cons_append, List.tail_cons] at hitems ⊢
      rw [hitems]
      rfl

theorem items_text_eq_iff {nodes nodes' : List ItemNode} (h : ∀ node ∈ nodes, Faithful node)
    (h' : ∀ node ∈ nodes', Faithful node) (o : Indentation) :
    (Passage.items nodes).text o = (Passage.items nodes').text o ↔ nodes = nodes' := by
  constructor
  · intro htext
    have hnodes := itemsOfText_text h o
    rw [htext, itemsOfText_text h' o] at hnodes
    exact (Option.some.inj hnodes).symm
  · intro heq
    rw [heq]

end Parse

-- The text of a list of statements or declarations says everything but what rendering forgets,
-- with any indentation, even an empty one.
theorem source_text_unambiguous :
    (∀ (o : Indentation) (ss : List (Stmt α)) (ss' : List (Stmt β)),
      (∀ s ∈ ss, s.wellFormed = true) → (∀ s ∈ ss', s.wellFormed = true) →
        (Stmt.textList o ss = Stmt.textList o ss' ↔ ss.map Stmt.norm = ss'.map Stmt.norm)) ∧
    (∀ (o : Indentation) (ds : List (Decl α)) (ds' : List (Decl β)),
      (∀ d ∈ ds, d.wellFormed = true) → (∀ d ∈ ds', d.wellFormed = true) →
        (Decl.textList o ds = Decl.textList o ds' ↔ ds.map Decl.norm = ds'.map Decl.norm)) := by
  refine ⟨fun o ss ss' h h' => ?_, fun o ds ds' h h' => ?_⟩
  · have hnodes : ∀ node ∈ ss.map Stmt.node, Parse.Faithful node := by
      simpa using fun s hs => Parse.faithful_stmt (h s hs)
    have hnodes' : ∀ node ∈ ss'.map Stmt.node, Parse.Faithful node := by
      simpa using fun s hs => Parse.faithful_stmt (h' s hs)
    rw [Stmt.textList, Stmt.textList, Source.text, Source.text, Source.passage_stmts,
      Source.passage_stmts, Parse.items_text_eq_iff hnodes hnodes']
    exact Stmt.map_node_eq_iff
  · have hnodes : ∀ node ∈ ds.map fun d => .decl d.node, Parse.Faithful node := by
      simpa using fun d hd => Parse.faithful_decl (h d hd)
    have hnodes' : ∀ node ∈ ds'.map fun d => .decl d.node, Parse.Faithful node := by
      simpa using fun d hd => Parse.faithful_decl (h' d hd)
    rw [Decl.textList, Decl.textList, Source.text, Source.text, Source.passage_decls,
      Source.passage_decls, Parse.items_text_eq_iff hnodes hnodes']
    exact Decl.map_item_eq_iff

-- A nested type whose property has the given setter.
def nestedProperty (setter : Option (Setter Nat)) : Decl Nat :=
  .extension ⟨"Outer", ["Equatable"], [.struct ⟨.file, "Inner", [], [.computed
    ⟨"value", "[Int]?", true, [.branch (.loop "x" (.variable "xs" 1) (.variable "x" 2))
      [.bind .constant "y" none (.literal (.string (openBrace ++ " " ++ closeBrace ++ "\n")))]
      (some [])], setter⟩]⟩]⟩

-- An absent else is not an empty one, and an absent setter is not an empty one, although
-- nothing is indented.
theorem source_text_unambiguous_nested :
    (∀ s ∈ [Stmt.branch (.variable "a" 1) [] none], s.wellFormed = true) ∧
    (∀ s ∈ [Stmt.branch (.variable "a" 2) [] (some [])], s.wellFormed = true) ∧
    Stmt.textList (.spaces 0) [Stmt.branch (.variable "a" 1) [] none] ≠
      Stmt.textList (.spaces 0) [Stmt.branch (.variable "a" 2) [] (some [])] ∧
    (∀ d ∈ [nestedProperty none], d.wellFormed = true) ∧
    (∀ d ∈ [nestedProperty (some ⟨"new", []⟩)], d.wellFormed = true) ∧
    Decl.textList (.spaces 0) [nestedProperty none] ≠
      Decl.textList (.spaces 0) [nestedProperty (some ⟨"new", []⟩)] := by
  have habsent : ∀ s ∈ [Stmt.branch (.variable "a" 1) [] none], s.wellFormed = true := by
    decide +kernel
  have hempty : ∀ s ∈ [Stmt.branch (.variable "a" 2) [] (some [])], s.wellFormed = true := by
    decide +kernel
  have hgetter : ∀ d ∈ [nestedProperty none], d.wellFormed = true := by decide +kernel
  have hsetter : ∀ d ∈ [nestedProperty (some ⟨"new", []⟩)], d.wellFormed = true := by
    decide +kernel
  have hall := source_text_unambiguous (α := Nat) (β := Nat)
  refine ⟨habsent, hempty, fun h => ?_, hgetter, hsetter, fun h => ?_⟩
  · have hnorm := (hall.1 (.spaces 0) _ _ habsent hempty).mp h
    simp [Stmt.norm] at hnorm
  · have hnorm := (hall.2 (.spaces 0) _ _ hgetter hsetter).mp h
    simp [nestedProperty, Decl.norm, ComputedDecl.norm] at hnorm

end SwiftSource
