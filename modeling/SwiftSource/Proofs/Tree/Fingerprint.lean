import SwiftSource.Mark
import SwiftSource.Proofs.Tree.Equality

namespace SwiftSource

open Fingerprint (words)

namespace Fingerprint

section Feeds

variable (β : Type) [BEq β] [Fingerprint β]

-- Equal values feed the same words.
def Consistent : Prop :=
  ∀ x y : β, (x == y) = true → words x = words y

-- Values that differ feed different words.
def Injective : Prop :=
  ∀ x y : β, words x = words y → (x == y) = true

end Feeds

-- What one value feeds never starts what another one feeds.
def PrefixFree (β : Type) [Fingerprint β] : Prop :=
  ∀ x y : β, words x <+: words y → words x = words y

-- A comparison and what its two sides feed. If the sides are the same they feed the same words.
-- Where words can be told apart, the feeds followed by anything show whether the sides are the
-- same, and where they end.
structure Lockstep (separating : Prop) (same : Bool) (xs ys : List Nat) : Prop where
  words_eq : same = true → xs = ys
  cancel : separating → ∀ rest rest', xs ++ rest = ys ++ rest' → same = true ∧ rest = rest'

def InStep {β : Type} [BEq β] [Fingerprint β] (separating : Prop) (x y : β) : Prop :=
  Lockstep separating (x == y) (words x) (words y)

theorem takeWhile_append_cons {n : Nat} {xs rest : List Nat} (h : n ∉ xs) :
    (xs ++ n :: rest).takeWhile (· != n) = xs := by
  have hall : ∀ x ∈ xs, (x != n) = true := by
    intro x hx
    exact bne_iff_ne.mpr fun heq => h (heq ▸ hx)
  rw [List.takeWhile_append_of_pos hall]
  simp

variable {separating : Prop}

namespace Lockstep

variable {same same' : Bool} {n n' : Nat} {xs ys xs' ys' : List Nat}

theorem congr (hsame : same = true ↔ same' = true) (h : Lockstep separating same' xs ys) :
    Lockstep separating same xs ys := by
  rw [Bool.eq_iff_iff.mpr hsame]
  exact h

theorem nil : Lockstep separating true [] [] where
  words_eq _ := rfl
  cancel _ _ _ h := ⟨rfl, h⟩

-- Two comparisons made one after the other feed one after the other.
theorem append (h : Lockstep separating same xs ys) (h' : Lockstep separating same' xs' ys') :
    Lockstep separating (same && same') (xs ++ xs') (ys ++ ys') where
  words_eq hsame := by
    obtain ⟨hfirst, hsecond⟩ := Bool.and_eq_true_iff.mp hsame
    rw [h.words_eq hfirst, h'.words_eq hsecond]
  cancel hsep rest rest' heq := by
    rw [List.append_assoc, List.append_assoc] at heq
    obtain ⟨hfirst, heq⟩ := h.cancel hsep _ _ heq
    obtain ⟨hsecond, hrest⟩ := h'.cancel hsep _ _ heq
    exact ⟨Bool.and_eq_true_iff.mpr ⟨hfirst, hsecond⟩, hrest⟩

theorem cons (n : Nat) (h : Lockstep separating same xs ys) :
    Lockstep separating same (n :: xs) (n :: ys) where
  words_eq hsame := by rw [h.words_eq hsame]
  cancel hsep rest rest' heq := h.cancel hsep rest rest' (List.cons.inj heq).2

theorem of_ne (h : n ≠ n') : Lockstep separating false (n :: xs) (n' :: ys) where
  words_eq hsame := absurd hsame Bool.false_ne_true
  cancel _ _ _ heq := absurd (List.cons.inj heq).1 h

theorem single (h : same = true ↔ n = n') : Lockstep separating same [n] [n'] where
  words_eq hsame := by rw [h.mp hsame]
  cancel _ rest rest' heq := by
    obtain ⟨hn, hrest⟩ := List.cons.inj heq
    exact ⟨h.mpr hn, hrest⟩

-- The end shows if a word is fed that stands nowhere before.
theorem terminated (hxs : n ∉ xs) (hys : n ∉ ys) (h : same = true ↔ xs = ys) :
    Lockstep separating same (xs ++ [n]) (ys ++ [n]) where
  words_eq hsame := by rw [h.mp hsame]
  cancel _ rest rest' heq := by
    rw [List.append_assoc, List.append_assoc, List.singleton_append, List.singleton_append] at heq
    have hwords : xs = ys := by
      rw [← takeWhile_append_cons hxs, heq, takeWhile_append_cons hys]
    subst hwords
    exact ⟨h.mpr rfl, (List.cons.inj (List.append_cancel_left heq)).2⟩

end Lockstep

-- The bytes of a text, in the encoding that it is kept in.
def bytes (text : String) : List Nat :=
  text.toList.flatMap fun c => (String.utf8EncodeChar c).map UInt8.toNat

theorem lt_of_mem_utf8EncodeChar {c : Char} {b : UInt8} (h : b ∈ String.utf8EncodeChar c) :
    b.toNat < 255 := by
  have hofNat : ∀ k : Nat, k < 255 → (UInt8.ofNat k).toNat < 255 := by
    intro k hk
    rw [UInt8.toNat_ofNat']
    omega
  simp only [String.utf8EncodeChar] at h
  split_ifs at h <;> simp only [List.mem_cons, List.not_mem_nil, or_false] at h
  · subst h
    apply hofNat
    omega
  · rcases h with rfl | rfl <;> apply hofNat <;> omega
  · rcases h with rfl | rfl | rfl <;> apply hofNat <;> omega
  · rcases h with rfl | rfl | rfl | rfl <;> apply hofNat <;> omega

theorem notMem_bytes (text : String) : 255 ∉ bytes text := by
  intro h
  simp only [bytes, List.mem_flatMap, List.mem_map] at h
  obtain ⟨c, -, b, hb, h⟩ := h
  have := lt_of_mem_utf8EncodeChar hb
  omega

theorem bytes_eq (text : String) :
    bytes text = (text.toList.flatMap String.utf8EncodeChar).map UInt8.toNat := by
  rw [bytes, List.map_flatMap]

theorem bytes_inj {s t : String} : bytes s = bytes t ↔ s = t := by
  constructor
  · intro h
    have hbytes :
        s.toList.flatMap String.utf8EncodeChar = t.toList.flatMap String.utf8EncodeChar := by
      rw [bytes_eq, bytes_eq] at h
      exact List.map_injective_iff.mpr (fun _ _ => UInt8.toNat_inj.mp) h
    have harray : s.toList.utf8Encode = t.toList.utf8Encode := congrArg List.toByteArray hbytes
    rwa [String.utf8Encode_toList, String.utf8Encode_toList, String.toByteArray_inj] at harray
  · rintro rfl
    rfl

theorem words_list {β : Type} [Fingerprint β] (xs : List β) :
    words xs = xs.length :: xs.flatMap words := rfl

namespace InStep

section Containers

variable {β : Type} [BEq β] [Fingerprint β]

theorem option {o o' : Option β} (h : ∀ x ∈ o, ∀ y, InStep separating x y) :
    InStep separating o o' := by
  cases o with
  | none =>
      cases o' with
      | none => exact Lockstep.nil.cons 0
      | some y => exact .of_ne (by decide)
  | some x =>
      cases o' with
      | none => exact .of_ne (by decide)
      | some y => exact (h x rfl y).cons 1

-- Of two lists of one length the members are fed in turn.
theorem flatMap {xs ys : List β} (h : ∀ x ∈ xs, ∀ y, InStep separating x y)
    (hlength : xs.length = ys.length) :
    Lockstep separating (xs == ys) (xs.flatMap words) (ys.flatMap words) := by
  induction xs generalizing ys with
  | nil =>
      have hys : ys = [] := List.length_eq_zero_iff.mp hlength.symm
      subst hys
      exact .nil
  | cons x xs ih =>
      cases ys with
      | nil => cases hlength
      | cons y ys =>
          rw [List.cons_beq_cons, List.flatMap_cons, List.flatMap_cons]
          refine (h x List.mem_cons_self y).append (ih ?_ (Nat.succ.inj hlength))
          exact fun x hx => h x (List.mem_cons_of_mem _ hx)

-- Lists of different lengths differ in the first word.
theorem list {xs ys : List β} (h : ∀ x ∈ xs, ∀ y, InStep separating x y) :
    InStep separating xs ys := by
  rw [InStep, words_list, words_list]
  by_cases hlength : xs.length = ys.length
  · rw [hlength]
    exact (flatMap h hlength).cons ys.length
  · have hne : (xs == ys) = false :=
      Bool.eq_false_iff.mpr fun heq => hlength (beq_iff_forall₂.mp heq).length_eq
    rw [hne]
    exact .of_ne hlength

end Containers

theorem bool (x y : Bool) : InStep separating x y := by
  refine .single ?_
  cases x <;> cases y <;> decide

theorem string (x y : String) : InStep separating x y := by
  have hsame : (x == y) = true ↔ bytes x = bytes y := by rw [bytes_inj, beq_iff_eq]
  exact .terminated (notMem_bytes x) (notMem_bytes y) hsame

theorem optionalString (x y : Option String) : InStep separating x y :=
  option fun x _ => string x

theorem strings (x y : List String) : InStep separating x y :=
  list fun x _ => string x

theorem int64 (x y : Int64) :
    Lockstep separating (x == y) [x.toUInt64.toNat] [y.toUInt64.toNat] := by
  refine .single ?_
  rw [UInt64.toNat_inj, beq_iff_eq]
  cases x
  cases y
  simp

theorem double (x y : Double) : Lockstep separating (x == y) [x.bits.toNat] [y.bits.toNat] := by
  refine .single ?_
  rw [UInt64.toNat_inj, beq_iff_eq, Double.mk.injEq]

theorem literal (x y : Literal) : InStep separating x y := by
  cases x with
  | int x =>
      cases y with
      | int y => exact .congr (by simp) ((int64 x y).cons 0)
      | _ => exact .of_ne (by decide)
  | double x =>
      cases y with
      | double y => exact .congr (by simp) ((double x y).cons 1)
      | _ => exact .of_ne (by decide)
  | string x =>
      cases y with
      | string y => exact .congr (by simp) ((string x y).cons 2)
      | _ => exact .of_ne (by decide)
  | bool x =>
      cases y with
      | bool y => exact .congr (by simp) ((bool x y).cons 3)
      | _ => exact .of_ne (by decide)
  | nil =>
      cases y with
      | nil => exact Lockstep.nil.cons 4
      | _ => exact .of_ne (by decide)

theorem mark (x y : Mark) : InStep separating x y := by
  cases x with
  | none =>
      cases y with
      | none => exact Lockstep.nil.cons 0
      | _ => exact .of_ne (by decide)
  | flag x =>
      cases y with
      | flag y => exact .congr (by simp) ((bool x y).cons 1)
      | _ => exact .of_ne (by decide)
  | number x =>
      cases y with
      | number y => exact .congr (by simp) ((int64 x y).cons 2)
      | _ => exact .of_ne (by decide)
  | text x =>
      cases y with
      | text y => exact .congr (by simp) ((string x y).cons 3)
      | _ => exact .of_ne (by decide)

theorem binding (x y : Binding) : InStep separating x y := by
  cases x <;> cases y <;> exact .single (by decide)

theorem access (x y : Access) : InStep separating x y := by
  cases x <;> cases y <;> exact .single (by decide)

theorem parameter (x y : Parameter) : InStep separating x y := by
  have hsame : (x == y) = true ↔ (x.label == y.label && x.name == y.name && x.type == y.type &&
      x.isInout == y.isInout && x.defaultValue == y.defaultValue) = true := by
    cases x
    cases y
    simp [and_assoc]
  refine .congr hsame ?_
  exact (optionalString _ _).append (string _ _) |>.append (string _ _) |>.append (bool _ _)
    |>.append (optionalString _ _)

theorem parameters (x y : List Parameter) : InStep separating x y :=
  list fun x _ => parameter x

end InStep

end Fingerprint

variable {α : Type}

section Nodes

variable [Fingerprint α]

-- Lists and optional parts feed what they feed in general.

instance : Fingerprint (Argument (Expr α)) where
  words a := words a.label ++ words a.value

theorem Expr.argumentWords_eq (as : List (Argument (Expr α))) :
    argumentWords as = as.flatMap Fingerprint.words := by
  induction as with
  | nil => rfl
  | cons a as ih =>
      rw [argumentWords, ih]
      rfl

theorem Expr.elementWords_eq (es : List (Expr α)) :
    elementWords es = es.flatMap Fingerprint.words := by
  induction es with
  | nil => rfl
  | cons e es ih =>
      rw [elementWords, ih]
      rfl

theorem Stmt.bodyWords_eq (ss : List (Stmt α)) :
    bodyWords ss = ss.flatMap Fingerprint.words := by
  induction ss with
  | nil => rfl
  | cons s ss ih =>
      rw [bodyWords, ih]
      rfl

theorem Stmt.elseWords_eq (body : Option (List (Stmt α))) :
    elseWords body = Fingerprint.words body := by
  cases body with
  | none => rfl
  | some body =>
      rw [elseWords, bodyWords_eq]
      rfl

theorem Decl.memberWords_eq (ds : List (Decl α)) :
    memberWords ds = ds.flatMap Fingerprint.words := by
  induction ds with
  | nil => rfl
  | cons d ds ih =>
      rw [memberWords, ih]
      rfl

end Nodes

namespace Fingerprint.InStep

variable {separating : Prop} [BEq α] [Fingerprint α]

theorem arguments {as as' : List (Argument (Expr α))}
    (h : ∀ a ∈ as, ∀ e, InStep separating a.value e) :
    Lockstep separating (Expr.beqArguments as as') (as.length :: Expr.argumentWords as)
      (as'.length :: Expr.argumentWords as') := by
  rw [Expr.beqArguments_eq, Expr.argumentWords_eq, Expr.argumentWords_eq]
  exact list fun a ha a' => (optionalString a.label a'.label).append (h a ha a'.value)

theorem elements {es es' : List (Expr α)} (h : ∀ e ∈ es, ∀ e', InStep separating e e') :
    Lockstep separating (Expr.beqElements es es') (es.length :: Expr.elementWords es)
      (es'.length :: Expr.elementWords es') := by
  rw [Expr.beqElements_eq, Expr.elementWords_eq, Expr.elementWords_eq]
  exact list h

theorem body {ss ss' : List (Stmt α)} (h : ∀ s ∈ ss, ∀ s', InStep separating s s') :
    Lockstep separating (Stmt.beqList ss ss') (ss.length :: Stmt.bodyWords ss)
      (ss'.length :: Stmt.bodyWords ss') := by
  rw [Stmt.beqList_eq, Stmt.bodyWords_eq, Stmt.bodyWords_eq]
  exact list h

theorem elseBody {body body' : Option (List (Stmt α))}
    (h : ∀ ss ∈ body, ∀ s ∈ ss, ∀ s', InStep separating s s') :
    Lockstep separating (Stmt.beqOption body body') (Stmt.elseWords body)
      (Stmt.elseWords body') := by
  rw [Stmt.beqOption_eq, Stmt.elseWords_eq, Stmt.elseWords_eq]
  exact option fun ss hss ss' => list (h ss hss)

theorem members {ds ds' : List (Decl α)} (h : ∀ d ∈ ds, ∀ d', InStep separating d d') :
    Lockstep separating (Decl.beqList ds ds') (ds.length :: Decl.memberWords ds)
      (ds'.length :: Decl.memberWords ds') := by
  rw [Decl.beqList_eq, Decl.memberWords_eq, Decl.memberWords_eq]
  exact list h

section Trees

variable (h : ∀ x y : α, InStep separating x y)

include h

-- Trees of different kinds differ in the first word; of two trees of one kind the parts are
-- compared and fed in the same order.
theorem expr (e e' : Expr α) : InStep separating e e' := by
  induction e using Expr.induction generalizing e' with
  | literal value =>
      cases e' with
      | literal value' => exact (literal value value').cons 0
      | _ => exact .of_ne (by decide)
  | reference name payload =>
      cases e' with
      | «variable» name' payload' => exact ((string name name').cons 1).append (h payload payload')
      | _ => exact .of_ne (by decide)
  | conditional condition thenBranch elseBranch hcondition hthen helse =>
      cases e' with
      | conditional condition' thenBranch' elseBranch' =>
          exact (((hcondition condition').cons 2).append (hthen thenBranch')).append
            (helse elseBranch')
      | _ => exact .of_ne (by decide)
  | loop element collection body hcollection hbody =>
      cases e' with
      | loop element' collection' body' =>
          exact (((string element element').cons 3).append (hcollection collection')).append
            (hbody body')
      | _ => exact .of_ne (by decide)
  | call name as has =>
      cases e' with
      | call name' as' => exact ((string name name').cons 4).append (arguments has)
      | _ => exact .of_ne (by decide)
  | method base name as hbase has =>
      cases e' with
      | method base' name' as' =>
          exact (((hbase base').cons 5).append (string name name')).append (arguments has)
      | _ => exact .of_ne (by decide)
  | binary left operator right hleft hright =>
      cases e' with
      | binary left' operator' right' =>
          exact (((hleft left').cons 6).append (string operator operator')).append (hright right')
      | _ => exact .of_ne (by decide)
  | property base name hbase =>
      cases e' with
      | property base' name' => exact ((hbase base').cons 7).append (string name name')
      | _ => exact .of_ne (by decide)
  | inline name type initializer hinitializer =>
      cases e' with
      | inline name' type' initializer' =>
          exact (((string name name').cons 8).append (optionalString type type')).append
            (hinitializer initializer')
      | _ => exact .of_ne (by decide)
  | array es hes =>
      cases e' with
      | array es' => exact (elements hes).cons 9
      | _ => exact .of_ne (by decide)

theorem optionalExpr (e e' : Option (Expr α)) : InStep separating e e' :=
  option fun e _ => expr h e

theorem stmt (s s' : Stmt α) : InStep separating s s' := by
  induction s using Stmt.induction generalizing s' with
  | bind kind name type initializer =>
      cases s' with
      | bind kind' name' type' initializer' =>
          exact (((binding kind kind').append (string name name')).append
            (optionalString type type')).append (expr h initializer initializer')
      | _ => cases kind <;> exact .of_ne (by decide)
  | guard condition elseBody helse =>
      cases s' with
      | guard condition' elseBody' =>
          exact ((expr h condition condition').cons 2).append (body helse)
      | bind kind' => cases kind' <;> exact .of_ne (by decide)
      | _ => exact .of_ne (by decide)
  | branch condition thenBody elseBody hthen helse =>
      cases s' with
      | branch condition' thenBody' elseBody' =>
          exact (((expr h condition condition').cons 3).append (body hthen)).append
            (InStep.elseBody helse)
      | bind kind' => cases kind' <;> exact .of_ne (by decide)
      | _ => exact .of_ne (by decide)
  | returns value =>
      cases s' with
      | returns value' => exact (optionalExpr h value value').cons 4
      | bind kind' => cases kind' <;> exact .of_ne (by decide)
      | _ => exact .of_ne (by decide)
  | throws error =>
      cases s' with
      | throws error' => exact (expr h error error').cons 5
      | bind kind' => cases kind' <;> exact .of_ne (by decide)
      | _ => exact .of_ne (by decide)
  | defer ss hss =>
      cases s' with
      | defer ss' => exact (body hss).cons 6
      | bind kind' => cases kind' <;> exact .of_ne (by decide)
      | _ => exact .of_ne (by decide)
  | expression value =>
      cases s' with
      | expression value' => exact (expr h value value').cons 7
      | bind kind' => cases kind' <;> exact .of_ne (by decide)
      | _ => exact .of_ne (by decide)

theorem stmts (ss ss' : List (Stmt α)) : InStep separating ss ss' :=
  list fun s _ => stmt h s

theorem functionDecl (d d' : FunctionDecl α) : InStep separating d d' :=
  (access d.access d'.access).append (string d.name d'.name)
    |>.append (parameters d.parameters d'.parameters) |>.append (bool d.isAsync d'.isAsync)
    |>.append (bool d.canThrow d'.canThrow) |>.append (optionalString d.returnType d'.returnType)
    |>.append (stmts h d.body d'.body)

-- The binding is fed as whether it is a constant.
theorem propertyDecl (d d' : PropertyDecl α) : InStep separating d d' := by
  have hbinding : Lockstep separating (d.binding == d'.binding)
      (words (d.binding == .constant)) (words (d'.binding == .constant)) := by
    cases d.binding <;> cases d'.binding <;> exact .single (by decide)
  exact (access d.access d'.access).append (string d.name d'.name)
    |>.append (optionalString d.type d'.type) |>.append (bool d.isStatic d'.isStatic)
    |>.append hbinding |>.append (optionalExpr h d.initializer d'.initializer)

theorem setter (d d' : Setter α) : InStep separating d d' :=
  (string d.parameter d'.parameter).append (stmts h d.body d'.body)

theorem computedDecl (d d' : ComputedDecl α) : InStep separating d d' :=
  (string d.name d'.name).append (string d.type d'.type) |>.append (bool d.isStatic d'.isStatic)
    |>.append (stmts h d.getter d'.getter) |>.append (option fun s _ => setter h s)

theorem initializerDecl (d d' : InitializerDecl α) : InStep separating d d' :=
  (access d.access d'.access).append (parameters d.parameters d'.parameters)
    |>.append (bool d.canThrow d'.canThrow) |>.append (stmts h d.body d'.body)

theorem decl (d d' : Decl α) : InStep separating d d' := by
  induction d using Decl.induction generalizing d' with
  | function d =>
      cases d' with
      | function d' => exact (functionDecl h d d').cons 0
      | _ => exact .of_ne (by decide)
  | property d =>
      cases d' with
      | property d' => exact (propertyDecl h d d').cons 1
      | _ => exact .of_ne (by decide)
  | computed d =>
      cases d' with
      | computed d' => exact (computedDecl h d d').cons 2
      | _ => exact .of_ne (by decide)
  | extension d hmembers =>
      cases d' with
      | extension d' =>
          exact (((string d.type d'.type).cons 3).append
            (strings d.conformances d'.conformances)).append (members hmembers)
      | _ => exact .of_ne (by decide)
  | struct d hmembers =>
      cases d' with
      | struct d' =>
          exact ((((access d.access d'.access).cons 4).append (string d.name d'.name)).append
            (strings d.conformances d'.conformances)).append (members hmembers)
      | _ => exact .of_ne (by decide)
  | initializer d =>
      cases d' with
      | initializer d' => exact (initializerDecl h d d').cons 5
      | _ => exact .of_ne (by decide)

end Trees

end Fingerprint.InStep

namespace Fingerprint

section Feeds

variable {separating : Prop} {β : Type} [BEq β] [Fingerprint β]

-- The payloads are in step with what they feed if equal ones feed the same words.
theorem Consistent.inStep (hconsistent : Consistent β) (x y : β) :
    InStep (Injective β ∧ PrefixFree β) x y where
  words_eq := hconsistent x y
  cancel hsep rest rest' heq := by
    obtain ⟨hinjective, hfree⟩ := hsep
    have hx : words x <+: words x ++ rest := List.prefix_append _ _
    have hy : words y <+: words x ++ rest := heq ▸ List.prefix_append _ _
    have hwords : words x = words y := by
      rcases List.prefix_or_prefix_of_prefix hx hy with h | h
      · exact hfree x y h
      · exact (hfree y x h).symm
    rw [hwords] at heq
    exact ⟨hinjective x y hwords, List.append_cancel_left heq⟩

theorem consistent_of_inStep (h : ∀ x y : β, InStep separating x y) : Consistent β :=
  fun x y => (h x y).words_eq

theorem injective_of_inStep (h : ∀ x y : β, InStep separating x y) (hsep : separating) :
    Injective β := by
  intro x y heq
  exact ((h x y).cancel hsep [] [] (by rw [heq])).1

theorem prefixFree_of_inStep (h : ∀ x y : β, InStep separating x y) (hsep : separating) :
    PrefixFree β := by
  rintro x y ⟨rest, hrest⟩
  have heq : words x ++ rest = words y ++ [] := by rw [hrest, List.append_nil]
  exact (h x y).words_eq ((h x y).cancel hsep rest [] heq).1

end Feeds

end Fingerprint

open Fingerprint

-- Equality looks at everything in a tree, and so does what a tree feeds to a hash.
theorem equality_agrees_with_hashing [BEq α] [EquivBEq α] [Fingerprint α]
    (hconsistent : Consistent α) :
    -- equality is an equivalence
    (EquivBEq Literal ∧ EquivBEq (Expr α) ∧ EquivBEq (Stmt α) ∧ EquivBEq (Decl α)) ∧
    -- it is literal for literals, bit by bit for doubles, and position by position for trees
    ((∀ x y : Literal, (x == y) = true ↔ x = y) ∧
      (∀ x y : Double, (Literal.double x == .double y) = true ↔ x.bits = y.bits) ∧
      (∀ e e' : Expr α, (e == e') = true ↔ Fragment.Coincide (.expr e) (.expr e')) ∧
      (∀ s s' : Stmt α, (s == s') = true ↔ Fragment.Coincide (.stmt s) (.stmt s')) ∧
      (∀ d d' : Decl α, (d == d') = true ↔ Fragment.Coincide (.decl d) (.decl d'))) ∧
    -- an empty else is not a missing one, and arguments are compared in order with their labels
    ((∀ (c c' : Expr α) (ss ss' : List (Stmt α)),
        (Stmt.branch c ss none == .branch c' ss' (some [])) = false) ∧
      (∀ (name name' : String) (as as' : List (Argument (Expr α))),
        (Expr.call name as == .call name' as') = true ↔ name = name' ∧
          List.Forall₂ (fun a a' => a.label = a'.label ∧ (a.value == a'.value) = true) as as')) ∧
    -- what is equal feeds the same words
    (Consistent Literal ∧ Consistent (Expr α) ∧ Consistent (Stmt α) ∧ Consistent (Decl α)) ∧
    -- what differs feeds different words
    (Injective Literal ∧ (Injective α → PrefixFree α →
      Injective (Expr α) ∧ Injective (Stmt α) ∧ Injective (Decl α))) := by
  have hliteral : ∀ x y : Literal, InStep True x y := InStep.literal
  have h := hconsistent.inStep
  refine ⟨⟨inferInstance, inferInstance, inferInstance, inferInstance⟩, ⟨?_, ?_, ?_, ?_, ?_⟩,
    ⟨?_, ?_⟩, ⟨?_, ?_, ?_, ?_⟩, ?_, ?_⟩
  · exact fun x y => beq_iff_eq
  · intro x y
    rw [beq_iff_eq, Literal.double.injEq, Double.mk.injEq]
  · intro e e'
    rw [← Fragment.beq_expr, Fragment.beq_iff_coincide]
  · intro s s'
    rw [← Fragment.beq_stmt, Fragment.beq_iff_coincide]
  · intro d d'
    rw [← Fragment.beq_decl, Fragment.beq_iff_coincide]
  · intro c c' ss ss'
    rw [← Stmt.beq_eq]
    simp [Stmt.beq]
  · intro name name' as as'
    rw [← Expr.beq_eq]
    simp [Expr.beq, beq_iff_forall₂, Argument.beq_eq]
  · exact consistent_of_inStep hliteral
  · exact consistent_of_inStep (InStep.expr h)
  · exact consistent_of_inStep (InStep.stmt h)
  · exact consistent_of_inStep (InStep.decl h)
  · exact injective_of_inStep hliteral trivial
  · intro hinjective hfree
    have hsep : Injective α ∧ PrefixFree α := ⟨hinjective, hfree⟩
    exact ⟨injective_of_inStep (InStep.expr h) hsep, injective_of_inStep (InStep.stmt h) hsep,
      injective_of_inStep (InStep.decl h) hsep⟩

-- A call with a double that is given by its bits.
def reading (bits : UInt64) : Expr Mark :=
  .call "reading" [⟨some "value", .literal (.double ⟨bits⟩)⟩, ⟨none, .variable "unit" (.text "m")⟩]

-- Two zeros and two NaNs.
theorem equality_agrees_with_hashing_nan :
    (reading 0x7ff8000000000000 == reading 0x7ff8000000000000) = true ∧
      words (reading 0) ≠ words (reading 0x8000000000000000) ∧
      words (reading 0x7ff8000000000000) ≠ words (reading 0x7ff8000000000001) := by
  have hmark : ∀ x y : Mark, InStep True x y := InStep.mark
  have hagrees := equality_agrees_with_hashing (consistent_of_inStep hmark)
  obtain ⟨⟨-, hequiv, -⟩, -, -, -, -, hinjective⟩ := hagrees
  obtain ⟨hexpr, -⟩ := hinjective (injective_of_inStep hmark trivial)
    (prefixFree_of_inStep hmark trivial)
  refine ⟨BEq.rfl, fun h => ?_, fun h => ?_⟩
  · exact absurd (hexpr _ _ h) (by decide +kernel)
  · exact absurd (hexpr _ _ h) (by decide +kernel)

end SwiftSource
