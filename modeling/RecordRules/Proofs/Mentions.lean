import RecordRules.Proofs.Footprint
import RecordRules.Proofs.PathGrammar
import RecordRules.Proofs.RoundTrip

/-!
What a rule takes over from its text: the paths, and the operators and verbs of its leaves. A
derivation and the tree it stands for have them in one order, with the same repetitions, since
joining links from the left and dropping parentheses moves no token past another. So the paths of
a compiled rule can be told from the tokens of its text, and so can the number of its leaves.
-/

namespace RecordRules

/-! ### Tokens -/

namespace Lexeme

def pathText? : Lexeme → Option String
  | path text => some text
  | _ => none

/-- A leaf is asked for here: whether a relation holds or what a verb says. -/
def isTest : Lexeme → Bool
  | relation _ | verb _ => true
  | _ => false

/-- The lexeme comes back in the tree, a path as an operand and a test in its leaf. -/
def isMention (l : Lexeme) : Bool := l.pathText?.isSome || l.isTest

end Lexeme

/-- The texts of the paths among tokens, in order and with repetitions. -/
def Token.pathTexts (ts : List Token) : List String :=
  (ts.map Token.lexeme).filterMap Lexeme.pathText?

/-- The identifier at the front of a text. -/
def Text.firstName (text : String) : String :=
  String.ofList (text.toList.takeWhile Text.isIdentPart)

/-! ### Trees -/

/-- What an operand mentions, as the tokens that say so. -/
def Operand.mentions (e : Operand) : List Lexeme := e.paths.map fun p => .path p.text

def Argument.mentions (a : Argument) : List Lexeme := a.paths.map fun p => .path p.text

namespace Rule

def leafMentions : Rule → List Lexeme
  | .comparison left op right => left.mentions ++ .relation op :: right.mentions
  | .predicate subject verb argument => subject.mentions ++ .verb verb :: argument.mentions
  | .group _ _ => []

/-- What a rule mentions, from left to right. -/
def mentions (r : Rule) : List Lexeme := r.leaves.flatMap leafMentions

def childMentions (rs : List Rule) : List Lexeme := (childLeaves rs).flatMap leafMentions

end Rule

namespace Mentions

open Grammar
open Parse (Tier)

lemma mentions_arithmetic (a : Operand) (op : Arithmetic) (b : Operand) :
    (Operand.arithmetic a op b).mentions = a.mentions ++ b.mentions :=
  List.map_append

lemma mentions_comparison (a : Operand) (op : Relation) (b : Operand) :
    (Rule.comparison a op b).mentions = a.mentions ++ .relation op :: b.mentions :=
  List.flatMap_singleton Rule.leafMentions _

lemma mentions_predicate (e : Operand) (verb : Verb) (a : Argument) :
    (Rule.predicate e verb a).mentions = e.mentions ++ .verb verb :: a.mentions :=
  List.flatMap_singleton Rule.leafMentions _

lemma childMentions_cons (r : Rule) (rs : List Rule) :
    Rule.childMentions (r :: rs) = r.mentions ++ Rule.childMentions rs :=
  List.flatMap_append

lemma mentions_group (op : Connective) (rs : List Rule) :
    (Rule.group op rs).mentions = Rule.childMentions rs := rfl

/-! ### What a tree takes over from its derivation -/

/-- The lexemes of a text of which its rule keeps something. -/
def kept (ls : List Lexeme) : List Lexeme := ls.filter Lexeme.isMention

lemma kept_append (u v : List Lexeme) : kept (u ++ v) = kept u ++ kept v := List.filter_append u v

lemma kept_dropped {l : Lexeme} (h : l.isMention = false) (ls : List Lexeme) :
    kept (l :: ls) = kept ls :=
  List.filter_cons_of_neg (by simp [h])

lemma kept_mention {l : Lexeme} (h : l.isMention = true) (ls : List Lexeme) :
    kept (l :: ls) = l :: kept ls :=
  List.filter_cons_of_pos h

lemma kept_wrapped (ls : List Lexeme) : kept (.openParen :: (ls ++ [.closeParen])) = kept ls := by
  rw [kept_dropped rfl, kept_append]
  exact List.append_nil _

mutual

theorem Chain.kept_lexemes {tier : Tier} : (c : Chain tier) → kept c.lexemes = c.tree.mentions
  | .mk first more => by
    rw [Chain.lexemes, kept_append, Link.kept_lexemes first, Links.kept_lexemes first.tree more,
      Chain.tree]
termination_by structural c => c

/-- The links come after what they are joined to. -/
theorem Links.kept_lexemes {tier : Tier} (left : Operand) :
    (m : Links tier) → left.mentions ++ kept m.lexemes = (m.after left).mentions
  | .nil => List.append_nil _
  | .cons op _ next more => by
    -- the next link is taken into the operand on the left before the others are joined to it
    have hmore := Links.kept_lexemes (.arithmetic left op next.tree) more
    rw [mentions_arithmetic, List.append_assoc] at hmore
    rw [Links.lexemes, kept_dropped rfl, kept_append, Link.kept_lexemes next, hmore, Links.after]
termination_by structural m => m

theorem Link.kept_lexemes {tier : Tier} : (l : Link tier) → kept l.lexemes = l.tree.mentions
  | .product c => Chain.kept_lexemes c
  | .operand a => Atom.kept_lexemes a
termination_by structural l => l

theorem Atom.kept_lexemes : (a : Atom) → kept a.lexemes = a.tree.mentions
  | .path _ => rfl
  | .literal _ => rfl
  | .paren c => by rw [Atom.lexemes, kept_wrapped, Chain.kept_lexemes c, Atom.tree]
termination_by structural a => a

end

lemma kept_itemLexemes : (ls : List Literal) → kept (itemLexemes ls) = []
  | [] => rfl
  | [_] => rfl
  | _ :: m :: ls => kept_itemLexemes (m :: ls)

theorem Test.kept_lexemes (t : Test) : kept t.lexemes = t.tree.mentions := by
  obtain ⟨subject, clause⟩ := t
  rw [Test.lexemes, kept_append, Chain.kept_lexemes subject]
  cases clause with
  | comparison op right =>
    rw [Clause.lexemes, kept_mention rfl, Chain.kept_lexemes right]
    exact (mentions_comparison subject.tree op right.tree).symm
  | predicate verb argument =>
    rw [Clause.lexemes, kept_mention rfl, Chain.kept_lexemes argument]
    exact (mentions_predicate subject.tree verb (.operand argument.tree)).symm
  | listed verb _ items =>
    rw [Clause.lexemes, kept_mention rfl, kept_dropped rfl, kept_append, kept_itemLexemes]
    exact (mentions_predicate subject.tree verb (.list items)).symm

mutual

theorem Group.kept_lexemes (g : Group) : kept g.lexemes = g.tree.mentions := by
  cases g with
  | single t => exact Term.kept_lexemes t
  | joined op first second more =>
    rw [Group.lexemes, kept_append, kept_dropped rfl, kept_append, Term.kept_lexemes first,
      Term.kept_lexemes second, Term.kept_moreLexemes op more, Group.tree, mentions_group,
      childMentions_cons, childMentions_cons]
termination_by structural g

theorem Term.kept_lexemes (t : Term) : kept t.lexemes = t.tree.mentions := by
  cases t with
  | paren g => rw [Term.lexemes, kept_wrapped, Group.kept_lexemes g, Term.tree]
  | test t => exact Test.kept_lexemes t
termination_by structural t

theorem Term.kept_moreLexemes (op : Connective) (ts : List Term) :
    kept (Term.moreLexemes op ts) = Rule.childMentions (Term.trees ts) := by
  cases ts with
  | nil => rfl
  | cons t ts =>
    rw [Term.moreLexemes, kept_dropped rfl, kept_append, Term.kept_lexemes t,
      Term.kept_moreLexemes op ts, Term.trees, childMentions_cons]
termination_by structural ts

end

/-! ### Paths and leaves among what is mentioned -/

lemma pathTexts_kept (ls : List Lexeme) :
    (kept ls).filterMap Lexeme.pathText? = ls.filterMap Lexeme.pathText? := by
  rw [kept, List.filterMap_filter]
  exact List.filterMap_congr fun l _ => by cases l <;> rfl

lemma countP_kept (ls : List Lexeme) :
    (kept ls).countP Lexeme.isTest = ls.countP Lexeme.isTest := by
  rw [kept, List.countP_filter]
  exact List.countP_congr fun l _ => by cases l <;> simp [Lexeme.isMention, Lexeme.isTest]

lemma pathTexts_paths (ps : List Path) :
    (ps.map fun p => Lexeme.path p.text).filterMap Lexeme.pathText? = ps.map Path.text := by
  rw [List.filterMap_map]
  exact congrFun List.filterMap_eq_map ps

lemma countP_paths (ps : List Path) :
    (ps.map fun p => Lexeme.path p.text).countP Lexeme.isTest = 0 := by
  rw [List.countP_map]
  exact List.countP_eq_zero.2 fun p _ => Bool.false_ne_true

lemma pathTexts_leaf {leaf : Rule} (h : leaf.isLeaf = true) :
    leaf.leafMentions.filterMap Lexeme.pathText? = leaf.paths.map Path.text := by
  cases leaf with
  | comparison left op right =>
    rw [Rule.leafMentions, List.filterMap_append, Rule.paths, List.map_append]
    exact congrArg₂ _ (pathTexts_paths left.paths) (pathTexts_paths right.paths)
  | predicate subject verb argument =>
    rw [Rule.leafMentions, List.filterMap_append, Rule.paths, List.map_append]
    exact congrArg₂ _ (pathTexts_paths subject.paths) (pathTexts_paths argument.paths)
  | group => cases h

lemma countP_leaf {leaf : Rule} (h : leaf.isLeaf = true) :
    leaf.leafMentions.countP Lexeme.isTest = 1 := by
  cases leaf with
  | comparison left op right =>
    rw [Rule.leafMentions, List.countP_append, List.countP_cons_of_pos (by rfl), Operand.mentions,
      Operand.mentions, countP_paths, countP_paths]
  | predicate subject verb argument =>
    rw [Rule.leafMentions, List.countP_append, List.countP_cons_of_pos (by rfl), Operand.mentions,
      Argument.mentions, countP_paths, countP_paths]
  | group => cases h

lemma pathTexts_mentions (r : Rule) :
    r.mentions.filterMap Lexeme.pathText? = r.paths.map Path.text := by
  rw [Rule.mentions, List.filterMap_flatMap, Rule.paths_eq, List.map_flatMap]
  exact List.flatMap_congr fun leaf hleaf => pathTexts_leaf (Rule.isLeaf_of_mem_leaves r hleaf)

lemma countP_mentions (r : Rule) : r.mentions.countP Lexeme.isTest = r.leafCount := by
  have hones : r.leaves.map (List.countP Lexeme.isTest ∘ Rule.leafMentions) =
      r.leaves.map fun _ => 1 :=
    List.map_congr_left fun leaf hleaf => countP_leaf (Rule.isLeaf_of_mem_leaves r hleaf)
  rw [Rule.mentions, List.countP_flatMap, hones, Rule.leafCount_eq]
  simp

lemma pathTexts_tree (g : Group) :
    g.lexemes.filterMap Lexeme.pathText? = g.tree.paths.map Path.text := by
  rw [← pathTexts_mentions, ← Group.kept_lexemes, pathTexts_kept]

lemma countP_tree (g : Group) : g.lexemes.countP Lexeme.isTest = g.tree.leafCount := by
  rw [← countP_mentions, ← Group.kept_lexemes, countP_kept]

/-! ### Texts -/

lemma root_eq (p : Path) : p.root = Text.firstName p.text := by
  obtain ⟨n, r, ss, hn, -, hs⟩ := Segment.exists_of_readAll p.reads
  rw [Path.root, hs]
  exact Segment.name_of_readName hn

/-- **Nothing is lost and nothing invented**: the paths of a compiled rule are those of the tokens
of its text, in order and with repetitions. Its required fields are their texts, its required roots
the first identifiers of these, and it has a leaf for each relation and each verb. -/
theorem compile_mentions {c : Compiler} {s : String} {r : CompiledRule}
    (h : (c.compile s).1 = .ok r) :
    ∃ ts, Token.scan s = .ok ts ∧
      r.root.paths.map Path.text = Token.pathTexts ts ∧
      (∀ text, text ∈ r.requiredFields ↔ text ∈ Token.pathTexts ts) ∧
      r.requiredFields.Pairwise (· < ·) ∧
      (∀ name, name ∈ r.requiredRoots ↔ name ∈ (Token.pathTexts ts).map Text.firstName) ∧
      r.requiredRoots.Pairwise (· < ·) ∧
      r.root.leafCount = ts.countP (·.lexeme.isTest) := by
  obtain ⟨-, hparse⟩ := Compiler.parse_of_compile h
  obtain ⟨ts, hts, g, hg, ht⟩ := Spelling.exists_tokens hparse
  have htexts : r.root.paths.map Path.text = Token.pathTexts ts := by
    rw [← ht, ← pathTexts_tree, hg]
    rfl
  have hroots : r.root.paths.map Path.root = (Token.pathTexts ts).map Text.firstName := by
    rw [← htexts, List.map_map]
    exact List.map_congr_left fun p _ => root_eq p
  have hleaves : r.root.leafCount = ts.countP (·.lexeme.isTest) := by
    rw [← ht, ← countP_tree, hg, List.countP_map]
    rfl
  refine ⟨ts, hts, htexts, fun text => ?_, Sorted.pairwise_ofList _, fun name => ?_,
    Sorted.pairwise_ofList _, hleaves⟩
  · rw [CompiledRule.requiredFields, Sorted.mem_ofList, htexts]
  · rw [CompiledRule.requiredRoots, Sorted.mem_ofList, hroots]

lemma readAll_low : Segment.readAll "limit.low".toList = .ok [.attr "limit", .attr "low"] :=
  PathGrammar.readAll_iff.2
    (.mk (w := "limit".toList) (by decide) (.cons (.point (w := "low".toList) (by decide)) .nil))

/-- A path that is mentioned twice is required once. -/
theorem compile_mentions_twice :
    ∃ (r : CompiledRule) (ts : List Token),
      (({} : Compiler).compile "((price - limit.low) > 1 && price in [1, 2])").1 = .ok r ∧
      Token.scan "((price - limit.low) > 1 && price in [1, 2])" = .ok ts ∧
      Token.pathTexts ts = ["price", "limit.low", "price"] ∧
      r.requiredFields = ["limit.low", "price"] ∧
      r.requiredRoots = ["limit", "price"] ∧
      ts.countP (·.lexeme.isTest) = 2 := by
  let price : Operand := .path ⟨"price", _, Footprint.readAll_price⟩
  let low : Operand := .path ⟨"limit.low", _, readAll_low⟩
  let t : Rule := .group .and
    [.comparison (.arithmetic price .sub low) .gt (.literal (.int 1)),
      .predicate price (.among false false) (.list [.int 1, .int 2])]
  have htext : t.text = "((price - limit.low) > 1 && price in [1, 2])" := by decide
  have hverbs : ∀ v ∈ Verb.all, v.keyword ≠ "price" ∧ v.keyword ≠ "limit.low" := by decide
  have hprice : Unreserved "price" := ⟨by decide, by decide, fun v => (hverbs v v.mem_all).1⟩
  have hlow : Unreserved "limit.low" := ⟨by decide, by decide, fun v => (hverbs v v.mem_all).2⟩
  have hitems : ∀ l ∈ [Literal.int 1, .int 2], l.WellFormed := by simp [Literal.WellFormed]
  have hparse : Rule.parse none t.text = .ok t :=
    RoundTrip.parse_text
      ⟨by decide, ⟨⟨hprice, hlow⟩, trivial⟩, ⟨hprice, rfl, hitems⟩, trivial⟩
  have hcompile : (({} : Compiler).compile t.text).1 = .ok ⟨t.text, t, 1⟩ := by
    unfold Compiler.compile
    rw [hparse]
  obtain ⟨ts, hts, htexts, -, -, -, -, hleaves⟩ := compile_mentions hcompile
  rw [← htext]
  exact ⟨_, ts, hcompile, hts, htexts.symm, by decide, by decide, hleaves.symm⟩

end Mentions

end RecordRules
