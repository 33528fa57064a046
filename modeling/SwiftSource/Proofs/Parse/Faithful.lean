import SwiftSource.Proofs.Parse.DeclReads

namespace SwiftSource

open Command (flatList flatItems)

namespace Parse

-- An item that is found again, and that breaks the line only inside its blocks.
structure Faithful (node : ItemNode) : Prop where
  reads : ItemReads node
  inline : ∀ command ∈ Print.item node, command.Inline

theorem newline_notMem_typeText {text : String} (h : isTypeText text = true) :
    '\n' ∉ text.toList := by
  intro hmem
  exact absurd ((isTypeText_iff.mp h).2 _ hmem) (by decide)

theorem items_eq_map (body : List ItemNode) : Print.items body = body.map Print.item := by
  induction body with
  | nil => rfl
  | cons node body ih => rw [Print.items, ih, List.map_cons]

theorem ItemReads.starts_isBlank {node : ItemNode} (h : ItemReads node) :
    starts isBlank (flatList (Print.item node)) = false := by
  have hblank (c : Char) (hc : isBlank c = true) : c ∈ ['}', '\n', ' ', '\t'] := by
    have hc : c = ' ' ∨ c = '\t' := by
      simpa only [isBlank, Bool.or_eq_true, beq_iff_eq] using hc
    rcases hc with rfl | rfl <;> simp
  have hstart := h.starts_eq_false hblank []
  cases hcs : flatList (Print.item node) with
  | nil => rfl
  | cons c cs =>
      rw [ItemNode.chars, hcs] at hstart
      exact hstart

theorem inline_block {body : List ItemNode} (h : ∀ node ∈ body, Faithful node) :
    (Command.block (Print.items body)).Inline := by
  refine .block ?_ ?_
  · intro line hline
    rw [items_eq_map] at hline
    obtain ⟨node, hnode, rfl⟩ := List.mem_map.mp hline
    exact (h node hnode).reads.starts_isBlank
  · intro line hline
    rw [items_eq_map] at hline
    obtain ⟨node, hnode, rfl⟩ := List.mem_map.mp hline
    exact (h node hnode).inline

section Statements

variable {condition value : ExprNode} {body : List ItemNode}

theorem faithful_expression (h : Reads value) (hleading : Unheaded value) (hline : value.IsInline) :
    Faithful (.expr value) := by
  refine ⟨reads_expression h hleading, ?_⟩
  rw [Print.item]
  exact hline

theorem faithful_guard (hcondition : Reads condition) (hline : condition.IsInline)
    (hbody : ∀ node ∈ body, Faithful node) : Faithful (.stmt (.guard condition body)) := by
  refine ⟨reads_guard hcondition fun node hnode => (hbody node hnode).reads, ?_⟩
  simp only [Print.item, Print.stmt, List.cons_append, List.forall_mem_cons,
    List.forall_mem_append]
  exact ⟨by simp, hline, by simp, inline_block hbody, by simp⟩

theorem faithful_branch (hcondition : Reads condition) (hline : condition.IsInline)
    (hbody : ∀ node ∈ body, Faithful node) {elseBody : Option (List ItemNode)}
    (helse : ∀ other ∈ elseBody, ∀ node ∈ other, Faithful node) :
    Faithful (.stmt (.branch condition body elseBody)) := by
  refine ⟨reads_branch hcondition (fun node hnode => (hbody node hnode).reads)
    fun other hother node hnode => (helse other hother node hnode).reads, ?_⟩
  have hclause : ∀ command ∈ Print.elseClause elseBody, command.Inline := by
    cases elseBody with
    | none => simp [Print.elseClause]
    | some other =>
        simp only [Print.elseClause, List.forall_mem_cons]
        exact ⟨by simp, inline_block (helse other rfl), by simp⟩
  simp only [Print.item, Print.stmt, List.cons_append, List.forall_mem_cons,
    List.forall_mem_append]
  exact ⟨by simp, ⟨hline, by simp, inline_block hbody, by simp⟩, hclause⟩

theorem faithful_returns {value : Option ExprNode}
    (h : ∀ node ∈ value, Reads node ∧ node.IsInline) : Faithful (.stmt (.returns value)) := by
  refine ⟨reads_returns fun node hnode => (h node hnode).1, ?_⟩
  cases value with
  | none => simp [Print.item, Print.stmt]
  | some value =>
      simp only [Print.item, Print.stmt, List.forall_mem_cons]
      exact ⟨by simp, (h value rfl).2⟩

theorem faithful_throws (h : Reads value) (hline : value.IsInline) :
    Faithful (.stmt (.throws value)) := by
  refine ⟨reads_throws h, ?_⟩
  simp only [Print.item, Print.stmt, List.forall_mem_cons]
  exact ⟨by simp, hline⟩

theorem faithful_defer (hbody : ∀ node ∈ body, Faithful node) :
    Faithful (.stmt (.defer body)) := by
  refine ⟨reads_defer fun node hnode => (hbody node hnode).reads, ?_⟩
  simp only [Print.item, Print.stmt, List.forall_mem_cons]
  exact ⟨by simp, inline_block hbody, by simp⟩

end Statements

section Declarations

variable {mods : Modifiers} {name : String} {entries : List Parameter} {body : List ItemNode}

theorem inline_keywords {vocabulary : List String} (h : ∀ w ∈ vocabulary, '\n' ∉ w.toList)
    (set : KeywordSet vocabulary) {spell : String → List Command}
    (hspell : ∀ w, '\n' ∉ w.toList → ∀ command ∈ spell w, command.Inline) :
    ∀ command ∈ set.keywords.flatMap spell, command.Inline := by
  intro command hcommand
  obtain ⟨w, hw, hcommand⟩ := List.mem_flatMap.mp hcommand
  exact hspell w (h w (set.keywords_sublist.subset hw)) command hcommand

theorem inline_modifiers (mods : Modifiers) :
    ∀ command ∈ Print.modifiers mods, command.Inline :=
  inline_keywords (by decide) mods (by simp)

theorem inline_effects (effs : Effects) : ∀ command ∈ Print.effects effs, command.Inline :=
  inline_keywords (by decide) effs (by simp)

-- The type of a variable, the type that is returned and a default value are texts behind a mark.
theorem inline_marked {clause : Option String → List Command} {mark : String}
    (hnone : clause none = []) (hsome : ∀ t, clause (some t) = [.write mark, .write t])
    (hmark : '\n' ∉ mark.toList) {text : Option String} (h : ∀ t ∈ text, isTypeText t = true) :
    ∀ command ∈ clause text, command.Inline := by
  cases text with
  | none => simp [hnone]
  | some text => simp [hsome, hmark, newline_notMem_typeText (h text rfl)]

theorem inline_typeClause {type : Option String} (h : ∀ t ∈ type, isTypeText t = true) :
    ∀ command ∈ Print.typeClause type, command.Inline :=
  inline_marked rfl (fun _ => rfl) (by decide) h

theorem inline_parameter {p : Parameter} (hp : p.wellFormed = true) (comma : Bool) :
    ∀ command ∈ Print.parameter ⟨p, comma⟩, command.Inline := by
  obtain ⟨label, name, type, isInout, value⟩ := p
  simp only [Parameter.wellFormed, Bool.and_eq_true, Option.all_eq_true] at hp
  obtain ⟨⟨⟨hlabel, hname⟩, htype⟩, hvalue⟩ := hp
  have hname := newline_notMem_word (isWord_of_isIdentifier hname)
  have htype := newline_notMem_typeText htype
  have hlabel : ∀ command ∈ Print.parameterLabel label, command.Inline := by
    cases label with
    | none => simp [Print.parameterLabel]
    | some label =>
        have hword := newline_notMem_word (isWord_of_isIdentifier (hlabel label rfl))
        simp [Print.parameterLabel, hword]
  have hvalue : ∀ command ∈ Print.defaultValue value, command.Inline :=
    inline_marked rfl (fun _ => rfl) (by decide) hvalue
  simp only [Print.parameter, List.forall_mem_append]
  refine ⟨⟨⟨⟨⟨hlabel, by simp [hname]⟩, ?_⟩, by simp [htype]⟩, hvalue⟩, inline_comma comma⟩
  cases isInout <;> simp

theorem inline_parameters (h : ∀ p ∈ entries, p.wellFormed = true) :
    ∀ command ∈ Print.parameters (separate entries), command.Inline := by
  have hentries : ∀ command ∈ (separate entries).flatMap Print.parameter, command.Inline := by
    intro command hcommand
    obtain ⟨entry, hentry, hcommand⟩ := List.mem_flatMap.mp hcommand
    exact inline_parameter (forall_mem_separate h entry hentry) entry.comma command hcommand
  simp only [Print.parameters, List.cons_append, List.forall_mem_cons, List.forall_mem_append]
  exact ⟨by simp, hentries, by simp⟩

theorem inline_inheritance {conformances : List String}
    (h : ∀ t ∈ conformances, isTypeText t = true) :
    ∀ command ∈ Print.inheritanceClause (inheritanceClause? conformances), command.Inline := by
  have hnames : ∀ command ∈ Print.names (separate conformances), command.Inline := by
    intro command hcommand
    obtain ⟨entry, hentry, hcommand⟩ := List.mem_flatMap.mp hcommand
    have htext := newline_notMem_typeText (forall_mem_separate h entry hentry)
    rcases List.mem_cons.mp hcommand with rfl | hcommand
    · exact .write htext
    · exact inline_comma entry.comma command hcommand
  cases conformances with
  | nil => simp [inheritanceClause?, Print.inheritanceClause]
  | cons first others =>
      have hclause : Print.inheritanceClause (inheritanceClause? (first :: others)) =
          .write ": " :: Print.names (separate (first :: others)) := rfl
      rw [hclause, List.forall_mem_cons]
      exact ⟨by simp, hnames⟩

theorem inline_accessor {entry : Accessor ItemNode}
    (hparameter : ∀ p ∈ entry.parameter, isWord p = true)
    (hbody : ∀ node ∈ entry.body, Faithful node) :
    ∀ command ∈ Print.accessor entry, command.Inline := by
  obtain ⟨kind, parameter, body⟩ := entry
  have hkeyword : '\n' ∉ (Print.accessorKeyword kind).toList := by cases kind <;> decide
  have hname : ∀ command ∈ Print.accessorParameter parameter, command.Inline := by
    cases parameter with
    | none => simp [Print.accessorParameter]
    | some p => simp [Print.accessorParameter, newline_notMem_word (hparameter p rfl)]
  simp only [Print.accessor, List.cons_append, List.forall_mem_cons, List.forall_mem_append]
  exact ⟨by simp [hkeyword], hname, by simp, inline_block hbody, by simp⟩

theorem accessors_eq_map (entries : List (Accessor ItemNode)) :
    Print.accessors entries = entries.map Print.accessor := by
  induction entries with
  | nil => rfl
  | cons entry entries ih => rw [Print.accessors, ih, List.map_cons]

theorem inline_accessors {entries : List (Accessor ItemNode)}
    (h : ∀ entry ∈ entries, (∀ p ∈ entry.parameter, isWord p = true) ∧
      ∀ node ∈ entry.body, Faithful node) :
    (Command.block (Print.accessors entries)).Inline := by
  rw [accessors_eq_map]
  refine .block ?_ ?_
  · intro line hline
    obtain ⟨⟨kind, parameter, body⟩, -, rfl⟩ := List.mem_map.mp hline
    cases kind <;> rfl
  · intro line hline
    obtain ⟨entry, hentry, rfl⟩ := List.mem_map.mp hline
    exact inline_accessor (h entry hentry).1 (h entry hentry).2

variable {kind : Binding} {type : Option String}

theorem faithful_stored (hname : isWord name = true) (htype : ∀ t ∈ type, isTypeText t = true)
    {value : Option ExprNode} (hvalue : ∀ node ∈ value, Reads node ∧ node.IsInline) :
    Faithful (.decl (.variable mods kind name type value none)) := by
  refine ⟨reads_stored hname htype fun node hnode => (hvalue node hnode).1, ?_⟩
  have hword := newline_notMem_word hname
  have hkind : '\n' ∉ kind.keyword.toList := by cases kind <;> decide
  have hinitial : ∀ command ∈ Print.initialValue value, command.Inline := by
    cases value with
    | none => simp [Print.initialValue]
    | some value =>
        simp only [Print.initialValue, List.forall_mem_cons]
        exact ⟨by simp, (hvalue value rfl).2⟩
  simp only [Print.item, Print.decl, Print.accessorClause, List.forall_mem_append]
  exact ⟨⟨⟨⟨inline_modifiers mods, by simp [hword, hkind]⟩, inline_typeClause htype⟩, hinitial⟩,
    by simp⟩

theorem faithful_computed (hname : isWord name = true) (htype : ∀ t ∈ type, isTypeText t = true)
    {getter : List ItemNode} (hgetter : ∀ node ∈ getter, Faithful node)
    {setter : Option (String × List ItemNode)}
    (hsetter : ∀ s ∈ setter, isWord s.1 = true ∧ ∀ node ∈ s.2, Faithful node) :
    Faithful (.decl (.variable mods kind name type none (some (accessorList getter setter)))) := by
  refine ⟨reads_computed hname htype (fun node hnode => (hgetter node hnode).reads)
    fun s hs => ⟨(hsetter s hs).1, fun node hnode => ((hsetter s hs).2 node hnode).reads⟩, ?_⟩
  have hword := newline_notMem_word hname
  have hkind : '\n' ∉ kind.keyword.toList := by cases kind <;> decide
  have hentries : ∀ entry ∈ accessorList getter setter,
      (∀ p ∈ entry.parameter, isWord p = true) ∧ ∀ node ∈ entry.body, Faithful node := by
    cases setter with
    | none => simpa [accessorList] using hgetter
    | some setter => simpa [accessorList] using ⟨hgetter, hsetter setter rfl⟩
  simp only [Print.item, Print.decl, Print.initialValue, Print.accessorClause,
    List.forall_mem_append, List.forall_mem_cons]
  exact ⟨⟨⟨⟨inline_modifiers mods, by simp [hkind], by simp, by simp [hword], by simp⟩,
    inline_typeClause htype⟩, by simp⟩, by simp, inline_accessors hentries, by simp⟩

theorem faithful_function (hname : isWord name = true)
    (hentries : ∀ p ∈ entries, p.wellFormed = true) (effs : Effects)
    (htype : ∀ t ∈ type, isTypeText t = true) (hbody : ∀ node ∈ body, Faithful node) :
    Faithful (.decl (.function mods name (separate entries) effs type body)) := by
  refine ⟨reads_function hname hentries effs htype fun node hnode => (hbody node hnode).reads, ?_⟩
  have hword := newline_notMem_word hname
  have hreturn : ∀ command ∈ Print.returnClause type, command.Inline :=
    inline_marked rfl (fun _ => rfl) (by decide) htype
  simp only [Print.item, Print.decl, List.forall_mem_append, List.forall_mem_cons]
  exact ⟨⟨⟨⟨⟨inline_modifiers mods, by simp, by simp [hword], by simp⟩,
    inline_parameters hentries⟩, inline_effects effs⟩, hreturn⟩, by simp, inline_block hbody,
    by simp⟩

theorem faithful_initializer (hentries : ∀ p ∈ entries, p.wellFormed = true) (effs : Effects)
    (hbody : ∀ node ∈ body, Faithful node) :
    Faithful (.decl (.initializer mods (separate entries) effs body)) := by
  refine ⟨reads_initializer hentries effs fun node hnode => (hbody node hnode).reads, ?_⟩
  simp only [Print.item, Print.decl, List.forall_mem_append, List.forall_mem_cons]
  exact ⟨⟨⟨⟨inline_modifiers mods, by simp, by simp⟩, inline_parameters hentries⟩,
    inline_effects effs⟩, by simp, inline_block hbody, by simp⟩

variable {conformances : List String} {members : List DeclNode}

theorem inline_members (h : ∀ member ∈ members, Faithful (.decl member)) :
    (Command.block (Print.members members)).Inline := by
  rw [← items_map_decl]
  exact inline_block (by simpa using h)

theorem faithful_extension {type : String} (htype : isTypeText type = true)
    (hconformances : ∀ t ∈ conformances, isTypeText t = true)
    (hmembers : ∀ member ∈ members, Faithful (.decl member)) :
    Faithful (.decl (.extension type (inheritanceClause? conformances) members)) := by
  refine ⟨reads_extension htype hconformances fun m hm => (hmembers m hm).reads, ?_⟩
  have htext := newline_notMem_typeText htype
  simp only [Print.item, Print.decl, List.forall_mem_append, List.forall_mem_cons]
  exact ⟨⟨⟨by simp, by simp [htext], by simp⟩, inline_inheritance hconformances⟩, by simp,
    inline_members hmembers, by simp⟩

theorem faithful_struct (hname : isWord name = true)
    (hconformances : ∀ t ∈ conformances, isTypeText t = true)
    (hmembers : ∀ member ∈ members, Faithful (.decl member)) :
    Faithful (.decl (.struct mods name (inheritanceClause? conformances) members)) := by
  refine ⟨reads_struct hname hconformances fun m hm => (hmembers m hm).reads, ?_⟩
  have hword := newline_notMem_word hname
  simp only [Print.item, Print.decl, List.forall_mem_append, List.forall_mem_cons]
  exact ⟨⟨⟨inline_modifiers mods, by simp, by simp [hword], by simp⟩,
    inline_inheritance hconformances⟩, by simp, inline_members hmembers, by simp⟩

end Declarations

end Parse

end SwiftSource
