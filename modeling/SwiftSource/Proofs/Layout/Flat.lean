import SwiftSource.Layout.Printer
import SwiftSource.Proofs.Parse.Scan

namespace SwiftSource

open Parse

-- What a margin is made of.
def isBlank (c : Char) : Bool := c == ' ' || c == '\t'

-- Leaves out the blanks at the start of each line.
def dropMargins (atLineStart : Bool) : List Char → List Char
  | [] => []
  | c :: cs =>
    if atLineStart && isBlank c then dropMargins true cs else c :: dropMargins (c == '\n') cs

theorem dropMargins_blanks {margin : List Char} (h : ∀ c ∈ margin, isBlank c = true)
    (cs : List Char) : dropMargins true (margin ++ cs) = dropMargins true cs := by
  induction margin with
  | nil => rfl
  | cons c margin ih =>
      have hc : isBlank c = true := h c (by simp)
      have hrest := ih fun d hd => h d (by simp [hd])
      simp [dropMargins, hc, hrest]

-- A text without a line break is kept, unless it begins a line with a blank.
theorem dropMargins_append {text : List Char} {atLineStart : Bool} (hline : '\n' ∉ text)
    (hne : text ≠ []) (hstart : atLineStart = true → starts isBlank text = false)
    (rest : List Char) :
    dropMargins atLineStart (text ++ rest) = text ++ dropMargins false rest := by
  induction text generalizing atLineStart with
  | nil => exact absurd rfl hne
  | cons c text ih =>
      have hc : (atLineStart && isBlank c) = false := by
        cases atLineStart with
        | false => rfl
        | true => exact hstart rfl
      have hbreak : (c == '\n') = false := by
        have hne : c ≠ '\n' := fun h => hline (by simp [h])
        simpa using hne
      have htail : dropMargins false (text ++ rest) = text ++ dropMargins false rest := by
        cases text with
        | nil => rfl
        | cons d text => exact ih (fun h => hline (by simp [h])) (by simp) (by simp)
      simp [dropMargins, hc, hbreak, htail]

namespace Indentation

theorem isBlank_of_mem_margin {indentation : Indentation} {depth : Nat} :
    ∀ c ∈ (indentation.margin depth).toList, isBlank c = true := by
  intro c hc
  cases indentation with
  | spaces width =>
      rw [margin, String.toList_ofList] at hc
      rw [(List.mem_replicate.mp hc).2]
      rfl
  | tabs =>
      rw [margin, String.toList_ofList] at hc
      rw [(List.mem_replicate.mp hc).2]
      rfl

end Indentation

namespace Command

mutual

-- The text of a command without any margin.
def flat : Command → List Char
  | .write text => text.toList
  | .newline => ['\n']
  | .indented body => flatList body
  | .block items => '{' :: (flatItems items ++ ['\n', '}'])

def flatList : List Command → List Char
  | [] => []
  | command :: rest => command.flat ++ flatList rest

-- Each item is on a new line.
def flatItems : List (List Command) → List Char
  | [] => []
  | item :: rest => '\n' :: (flatList item ++ flatItems rest)

end

@[simp]
theorem flatList_append (xs ys : List Command) :
    flatList (xs ++ ys) = flatList xs ++ flatList ys := by
  induction xs with
  | nil => rfl
  | cons x xs ih => simp [flatList, ih]

-- A command that breaks the line only inside a block, where no item begins with a blank.
inductive Inline : Command → Prop
  | write {text : String} : '\n' ∉ text.toList → Inline (.write text)
  | block {items : List (List Command)} :
      (∀ item ∈ items, starts isBlank (flatList item) = false) →
      (∀ item ∈ items, ∀ command ∈ item, Inline command) → Inline (.block items)

@[simp]
theorem inline_write_iff {text : String} : (Command.write text).Inline ↔ '\n' ∉ text.toList := by
  constructor
  · rintro ⟨h⟩
    assumption
  · exact .write

end Command

namespace Printer

variable {indentation : Indentation}

-- Between two states of the printer a text was added that is `cs` without its margins.
def Lays (p q : Printer) (cs : List Char) : Prop :=
  ∃ added, q.output.toList = p.output.toList ++ added ∧
    ∀ rest, dropMargins p.atLineStart (added ++ rest) = cs ++ dropMargins q.atLineStart rest

theorem Lays.trans {p q r : Printer} {cs ds : List Char} (h : p.Lays q cs) (h' : q.Lays r ds) :
    p.Lays r (cs ++ ds) := by
  obtain ⟨added, hout, hdrop⟩ := h
  obtain ⟨added', hout', hdrop'⟩ := h'
  refine ⟨added ++ added', by rw [hout', hout, List.append_assoc], fun rest => ?_⟩
  rw [List.append_assoc, hdrop, hdrop', List.append_assoc]

-- The depth matters to margins only.
theorem lays_nil {p q : Printer} (hout : q.output = p.output)
    (hstart : q.atLineStart = p.atLineStart) : p.Lays q [] :=
  ⟨[], by simp [hout], fun rest => by simp [hstart]⟩

theorem lays_newline (p : Printer) : p.Lays p.newline ['\n'] := by
  refine ⟨['\n'], by simp [newline], fun rest => ?_⟩
  have hblank : (p.atLineStart && isBlank '\n') = false := by cases p.atLineStart <;> rfl
  simp [dropMargins, hblank, newline]

theorem lays_write {p : Printer} {text : String} (hline : '\n' ∉ text.toList)
    (hstart : p.atLineStart = true → starts isBlank text.toList = false) :
    p.Lays (p.write indentation text) text.toList := by
  unfold Printer.write
  split
  · rename_i hempty
    subst hempty
    exact lays_nil rfl rfl
  · rename_i hne
    have hne : text.toList ≠ [] := by simpa using hne
    split
    · rename_i hfirst
      refine ⟨(indentation.margin p.depth).toList ++ text.toList, by simp, fun rest => ?_⟩
      rw [hfirst, List.append_assoc, dropMargins_blanks Indentation.isBlank_of_mem_margin]
      exact dropMargins_append hline hne (fun _ => hstart hfirst) rest
    · rename_i hfirst
      refine ⟨text.toList, by simp, fun rest => ?_⟩
      exact dropMargins_append hline hne hstart rest

theorem atLineStart_write {p : Printer} {text : String}
    (h : (p.write indentation text).atLineStart = true) :
    text.toList = [] ∧ p.atLineStart = true := by
  unfold Printer.write at h
  split at h
  · rename_i hempty
    exact ⟨by simp [hempty], h⟩
  · split at h <;> cases h

theorem run_append (p : Printer) (xs ys : List Command) :
    p.run indentation (xs ++ ys) = (p.run indentation xs).run indentation ys := by
  induction xs generalizing p with
  | nil => rfl
  | cons x xs ih => rw [List.cons_append, run, run, ih]

-- What one command does to the text. The line is still empty afterwards only if nothing was
-- printed on it.
def Executes (indentation : Indentation) (command : Command) : Prop :=
  ∀ p : Printer, (p.atLineStart = true → starts isBlank command.flat = false) →
    p.Lays (p.exec indentation command) command.flat ∧
    ((p.exec indentation command).atLineStart = true →
      command.flat = [] ∧ p.atLineStart = true)

theorem lays_run {program : List Command} (h : ∀ command ∈ program, Executes indentation command)
    {p : Printer} (hstart : p.atLineStart = true →
      starts isBlank (Command.flatList program) = false) :
    p.Lays (p.run indentation program) (Command.flatList program) := by
  induction program generalizing p with
  | nil => exact lays_nil rfl rfl
  | cons command rest ih =>
      have hfirst : p.atLineStart = true → starts isBlank command.flat = false := by
        intro hp
        have hall := hstart hp
        rw [Command.flatList] at hall
        cases hflat : command.flat with
        | nil => rfl
        | cons c cs =>
            rw [hflat] at hall
            exact hall
      obtain ⟨hlays, hempty⟩ := h command (by simp) p hfirst
      refine hlays.trans (ih (fun c hc => h c (by simp [hc])) fun hnext => ?_)
      obtain ⟨hflat, hp⟩ := hempty hnext
      have hall := hstart hp
      rwa [Command.flatList, hflat, List.nil_append] at hall

theorem lays_runItems {items : List (List Command)}
    (hblank : ∀ item ∈ items, starts isBlank (Command.flatList item) = false)
    (h : ∀ item ∈ items, ∀ command ∈ item, Executes indentation command) (p : Printer) :
    p.Lays (p.runItems indentation items) (Command.flatItems items) := by
  induction items generalizing p with
  | nil => exact lays_nil rfl rfl
  | cons item rest ih =>
      have hitem := lays_run (h item (by simp)) (p := p.newline) fun _ => hblank item (by simp)
      have hrest := ih (fun x hx => hblank x (by simp [hx])) (fun x hx => h x (by simp [hx]))
        (p.newline.run indentation item)
      have hall := ((lays_newline p).trans hitem).trans hrest
      simpa [Command.flatItems, runItems] using hall

theorem executes_of_inline {command : Command} (h : command.Inline) :
    Executes indentation command := by
  induction h with
  | write hline =>
      intro p hstart
      exact ⟨lays_write hline hstart, atLineStart_write⟩
  | @block items hblank _ ih =>
      intro p _
      let opened := (p.write indentation openBrace).deeper
      let filled := opened.runItems indentation items
      let closing := filled.shallower.newline
      have hopen : p.Lays opened ['{'] :=
        (lays_write (by decide) fun _ => rfl).trans (lays_nil rfl rfl)
      have hitems : opened.Lays filled (Command.flatItems items) := lays_runItems hblank ih opened
      have hbreak : filled.Lays closing ['\n'] := (lays_nil rfl rfl).trans (lays_newline _)
      have hclose : closing.Lays (closing.write indentation closeBrace) ['}'] :=
        lays_write (by decide) fun _ => rfl
      refine ⟨?_, fun hend => ?_⟩
      · have hall := ((hopen.trans hitems).trans hbreak).trans hclose
        simpa [Command.flat, exec] using hall
      · have hnone := (atLineStart_write hend).1
        cases hnone

end Printer

namespace Command

variable {indentation : Indentation}

-- What is left of the whole text once margins are dropped.
theorem dropMargins_of_lays {program : List Command} {cs : List Char}
    (h : Printer.start.Lays (Printer.start.run indentation program) cs) :
    dropMargins true (text indentation program).toList = cs := by
  obtain ⟨added, hout, hdrop⟩ := h
  have hall := hdrop []
  rw [List.append_nil] at hall
  have htext : (text indentation program).toList = added := hout
  rw [htext]
  simpa [dropMargins, Printer.start] using hall

theorem dropMargins_text {program : List Command} (h : ∀ command ∈ program, command.Inline)
    (hblank : starts isBlank (flatList program) = false) :
    dropMargins true (text indentation program).toList = flatList program :=
  dropMargins_of_lays
    (Printer.lays_run (fun c hc => Printer.executes_of_inline (h c hc)) fun _ => hblank)

-- The same for items one below the other without braces. Their first line needs no break.
theorem dropMargins_lines {lines : List (List Command)}
    (hblank : ∀ line ∈ lines, starts isBlank (flatList line) = false)
    (h : ∀ line ∈ lines, ∀ command ∈ line, command.Inline) :
    dropMargins true (text indentation (List.intercalate [.newline] lines)).toList =
      (flatItems lines).tail := by
  have hlays (p : Printer) (hp : p.atLineStart = true) :
      p.Lays (p.run indentation (List.intercalate [.newline] lines)) (flatItems lines).tail := by
    induction lines generalizing p with
    | nil => exact Printer.lays_nil rfl rfl
    | cons line lines ih =>
        have hline : p.Lays (p.run indentation line) (flatList line) :=
          Printer.lays_run (fun c hc => Printer.executes_of_inline (h line (by simp) c hc))
            fun _ => hblank line (by simp)
        cases lines with
        | nil => simpa [flatItems, List.intercalate] using hline
        | cons next lines =>
            have hrest := ih (fun x hx => hblank x (by simp [hx])) (fun x hx => h x (by simp [hx]))
              (p.run indentation line).newline rfl
            have hall := (hline.trans (Printer.lays_newline _)).trans hrest
            have hcommands : List.intercalate [.newline] (line :: next :: lines) =
                line ++ (.newline :: List.intercalate [.newline] (next :: lines)) := by
              simp [List.intercalate]
            rw [hcommands, Printer.run_append]
            simpa [flatItems, Printer.run, Printer.exec] using hall
  exact dropMargins_of_lays (hlays .start rfl)

end Command

end SwiftSource
