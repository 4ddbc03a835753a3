import RecordRules.Proofs.Faults
import RecordRules.Proofs.Positions.Parse

/-!
The parser by positions is the parser. The tokens that are left are those from the cursor on,
the last mark is the end of the text, and as many parentheses are open as the readers count.
So the cursor always stands at a mark, and with enough steps nothing is stuck.
-/

namespace RecordRules.Positions

open Parse (Fault Tier)
open Reader

variable {α β : Type} {stop start n depth : ℕ} {limit : Option ℕ} {tier : Tier}
  {all ts r : List Token}

/-! ### The cursor -/

/-- The mark that stands before what is left. -/
def front (stop : ℕ) : List Token → Mark
  | [] => ⟨none, stop⟩
  | t :: _ => ⟨some t.lexeme, t.offset⟩

/-- The cursor when these tokens of all are left. -/
def cursor (all ts : List Token) (depth : ℕ) : Cursor := ⟨all.length - ts.length, depth⟩

/-- The outcome of a reader with the cursor for the tokens that are left. -/
def settled (all : List Token) (depth : ℕ) (y : Except Fault (α × List Token)) :
    Option (Except Fault (α × Cursor)) :=
  some (y.map fun x => (x.1, cursor all x.2 depth))

/-- A reader and what goes on from where it leaves the cursor. -/
lemma bind_at {x : Reader α} {f : α → Reader β} {y : Except Fault (α × List Token)}
    {z : Except Fault (β × List Token)} (hx : x (cursor all ts depth) = settled all depth y)
    (hy : Faults.Within stop all y) (herror : ∀ e, y = .error e → z = .error e)
    (hok : ∀ a r, y = .ok (a, r) → r <:+ all → f a (cursor all r depth) = settled all depth z) :
    (x >>= f) (cursor all ts depth) = settled all depth z := by
  cases y with
  | error e =>
    rw [herror e rfl]
    exact bind_error hx
  | ok a => exact (bind_ok hx).trans (hok a.1 a.2 rfl hy)

lemma bind_pure_at {x : Reader α} {y : Except Fault (α × List Token)} (g : α → β)
    (hx : x (cursor all ts depth) = settled all depth y) :
    (x >>= fun a => pure (g a)) (cursor all ts depth) =
      settled all depth (y.map fun z => (g z.1, z.2)) := by
  cases y with
  | error e => exact bind_error hx
  | ok z => exact bind_ok hx

lemma marks_drop (h : ts <:+ all) :
    (marks stop all).drop (all.length - ts.length) = marks stop ts := by
  obtain ⟨u, rfl⟩ := h
  have hlen : (u ++ ts).length - ts.length = u.length := by
    rw [List.length_append, Nat.add_sub_cancel]
  rw [hlen, marks, List.map_append, List.append_assoc, List.drop_left' (List.length_map _)]
  rfl

lemma marks_last : sub? (marks stop all).length 1 = some all.length := by
  have hlen : (marks stop all).length = 1 + all.length := by
    rw [marks, List.length_append, List.length_map, Nat.add_comm]
    rfl
  rw [hlen, sub?_add]

lemma marks_at (h : ts <:+ all) :
    (marks stop all)[all.length - ts.length]? = some (front stop ts) := by
  rw [← List.head?_drop, marks_drop h]
  cases ts <;> rfl

lemma peek_at (h : ts <:+ all) :
    peek (marks stop all) (cursor all ts depth) =
      some (.ok (front stop ts, cursor all ts depth)) := by
  have hmin : min (all.length - ts.length) all.length = all.length - ts.length :=
    Nat.min_eq_left (Nat.sub_le _ _)
  unfold peek
  rw [bind_ok rfl, marks_last, bind_ok rfl]
  change ofOption (marks stop all)[min (all.length - ts.length) all.length]? _ = _
  rw [hmin, marks_at h]
  rfl

lemma advance_at (h : ts <:+ all) :
    advance (marks stop all) (cursor all ts depth) =
      some (.ok (front stop ts, cursor all ts.tail depth)) := by
  have hle := h.length_le
  have hnext : (if all.length - ts.length < all.length then all.length - ts.length + 1
      else all.length - ts.length) = all.length - ts.tail.length := by
    cases ts with
    | nil => exact if_neg (Nat.lt_irrefl _)
    | cons t r =>
      rw [List.length_cons] at hle ⊢
      rw [if_pos (by omega), List.tail_cons]
      omega
  unfold advance
  rw [bind_ok (peek_at h), bind_ok rfl, marks_last, bind_ok rfl, bind_ok rfl]
  exact congrArg some (congrArg Except.ok (Prod.ext rfl (congrArg (Cursor.mk · depth) hnext)))

lemma enter_at (hd : Parse.tooDeep limit depth = none) :
    enter limit start (cursor all ts depth) = some (.ok ((), cursor all ts (depth + 1))) := by
  unfold enter
  rw [bind_ok rfl, bind_ok rfl]
  have hd' : Parse.tooDeep limit (cursor all ts depth).depth = none := hd
  rw [hd']
  rfl

lemma enter_deep {k : ℕ} (hd : Parse.tooDeep limit depth = some k) :
    enter limit start (cursor all ts depth) = some (.error (.nestingTooDeep k, start)) := by
  unfold enter
  rw [bind_ok rfl, bind_ok rfl]
  have hd' : Parse.tooDeep limit (cursor all ts depth).depth = some k := hd
  rw [hd']
  rfl

/-- A parenthesis that was opened is there to be closed. -/
lemma leave_at : leave (cursor all ts (depth + 1)) = some (.ok ((), cursor all ts depth)) := by
  unfold leave
  rw [bind_ok rfl]
  have hsub : sub? (depth + 1) 1 = some depth := if_pos (Nat.le_add_left 1 depth)
  change (ofOption (sub? (depth + 1) 1) >>= _) _ = _
  rw [hsub, bind_ok rfl]
  rfl

lemma expectClose_at (stop start depth : ℕ) (h : ts <:+ all) :
    expectClose (marks stop all) start (cursor all ts depth) =
      some ((Readers.close start ts).map fun r => ((), cursor all r depth)) := by
  unfold expectClose
  rw [bind_ok (advance_at h)]
  rcases ts with _ | ⟨⟨l, o⟩, r⟩
  · rfl
  · cases l <;> rfl

lemma front_is {t : Token} {l : Lexeme} :
    (front stop (t :: r)).lexeme? = some l ↔ t.lexeme = l :=
  Option.some_inj

lemma front_closes : (front stop ts).lexeme? = some .closeParen ↔ Parse.closesAtOnce ts = true := by
  cases ts with
  | nil => exact iff_of_false nofun nofun
  | cons t r =>
    rw [front_is]
    exact beq_iff_eq.symm

lemma parenthesized_at {x : Reader α} {y : Except Fault (α × List Token)} (h : ts <:+ all)
    (hx : x (cursor all ts (depth + 1)) = settled all (depth + 1) y)
    (hy : Faults.Within stop all y) :
    parenthesized (marks stop all) limit start x (cursor all ts depth) =
      settled all depth (Readers.enclosed limit depth start ts y) := by
  unfold parenthesized Readers.enclosed
  cases hd : Parse.tooDeep limit depth with
  | some k => exact bind_error (enter_deep hd)
  | none =>
    rw [bind_ok (enter_at hd), bind_ok (peek_at h)]
    dsimp only
    by_cases hc : Parse.closesAtOnce ts = true
    · rw [if_pos (front_closes.2 hc), if_pos hc]
      rfl
    rw [if_neg (mt front_closes.1 hc), if_neg hc]
    rcases y with e | ⟨a, r⟩
    · exact bind_error hx
    have hclose := expectClose_at stop start (depth + 1) (show r <:+ all from hy)
    rw [bind_ok hx]
    dsimp only [Except.bind]
    cases hr : Readers.close start r with
    | error e =>
      rw [hr] at hclose
      exact bind_error hclose
    | ok r' =>
      rw [hr] at hclose
      rw [bind_ok hclose, bind_ok leave_at]
      rfl

/-! ### Operands -/

/-- With more than `n` steps the operands are read as the readers do. -/
structure OperandsAgree (stop : ℕ) (limit : Option ℕ) (all : List Token) (n : ℕ) : Prop where
  chain (tier : Tier) (depth : ℕ) {ts : List Token} (h : ts <:+ all)
    (hn : 8 * ts.length + tier.rank + 2 < n) :
    chain (marks stop all) limit n tier (cursor all ts depth) =
      settled all depth (Readers.chain stop limit tier depth ts)
  chainFrom {tier : Tier} {depth : ℕ} {left : Operand} {ts : List Token} (h : ts <:+ all)
    (hn : 8 * ts.length < n) :
    chainFrom (marks stop all) limit n tier left (cursor all ts depth) =
      settled all depth (Readers.chainFrom stop limit tier depth left ts)
  link (tier : Tier) (depth : ℕ) {ts : List Token} (h : ts <:+ all)
    (hn : 8 * ts.length + tier.rank + 1 < n) :
    link (marks stop all) limit n tier (cursor all ts depth) =
      settled all depth (Readers.link stop limit tier depth ts)
  operand {depth : ℕ} {ts : List Token} (h : ts <:+ all) (hn : 8 * ts.length < n) :
    operand (marks stop all) limit n (cursor all ts depth) =
      settled all depth (Readers.operand stop limit depth ts)

lemma rank_le (tier : Tier) : tier.rank ≤ 2 := by cases tier <;> decide

lemma chain_agrees (ih : OperandsAgree stop limit all n) (h : ts <:+ all)
    (hn : 8 * ts.length + tier.rank + 2 < n + 1) :
    chain (marks stop all) limit (n + 1) tier (cursor all ts depth) =
      settled all depth (Readers.chain stop limit tier depth ts) := by
  have hlink := ih.link tier depth h (by omega)
  rw [chain, Readers.chain_eq]
  refine bind_at hlink (Faults.link_within h) (fun e he => by rw [he]) fun left r hr hsuffix => ?_
  have hlen : r.length < ts.length := Readers.length_link hr
  rw [hr]
  exact ih.chainFrom hsuffix (by omega)

lemma chainFrom_agrees (ih : OperandsAgree stop limit all n) {left : Operand} (h : ts <:+ all)
    (hn : 8 * ts.length < n + 1) :
    chainFrom (marks stop all) limit (n + 1) tier left (cursor all ts depth) =
      settled all depth (Readers.chainFrom stop limit tier depth left ts) := by
  have hrank := rank_le tier
  rw [chainFrom, bind_ok (peek_at h)]
  rcases ts with _ | ⟨⟨l, o⟩, r⟩
  · rw [Readers.chainFrom_nil]
    rfl
  rw [Readers.chainFrom_cons]
  cases l with
  | arithmetic op =>
    dsimp only [front]
    by_cases hj : tier.joins op = true
    · rw [List.length_cons] at hn
      have hr := Faults.tail_suffix h
      have hlink := ih.link tier depth hr (by omega)
      rw [if_pos hj, if_pos hj, bind_ok (advance_at h), List.tail_cons]
      refine bind_at hlink (Faults.link_within hr) (fun e he => by rw [he])
        fun right r₁ hr₁ hsuffix => ?_
      have hlen : r₁.length < r.length := Readers.length_link hr₁
      rw [hr₁]
      exact ih.chainFrom hsuffix (by omega)
    · rw [if_neg hj, if_neg hj]
      rfl
  | _ => rfl

lemma link_agrees (ih : OperandsAgree stop limit all n) (h : ts <:+ all)
    (hn : 8 * ts.length + tier.rank + 1 < n + 1) :
    link (marks stop all) limit (n + 1) tier (cursor all ts depth) =
      settled all depth (Readers.link stop limit tier depth ts) := by
  cases tier with
  | sum =>
    rw [link, Readers.link_sum]
    exact ih.chain .product depth h (by simp only [Tier.rank] at hn ⊢; omega)
  | product =>
    rw [link, Readers.link_product]
    exact ih.operand h (by omega)

lemma operand_agrees (ih : OperandsAgree stop limit all n) (h : ts <:+ all)
    (hn : 8 * ts.length < n + 1) :
    operand (marks stop all) limit (n + 1) (cursor all ts depth) =
      settled all depth (Readers.operand stop limit depth ts) := by
  rw [operand, bind_ok (advance_at h)]
  rcases ts with _ | ⟨⟨l, o⟩, r⟩
  · rw [Readers.operand_nil]
    rfl
  have hr := Faults.tail_suffix h
  rw [List.length_cons] at hn
  rw [List.tail_cons]
  cases l with
  | path text =>
    rw [Readers.operand_cons]
    dsimp only [front]
    rw [path?_eq]
    cases Path.read text <;> rfl
  | openParen =>
    have hchain := ih.chain .sum (depth + 1) hr (by
      simp only [Tier.rank]
      omega)
    rw [Readers.operand_enclosed]
    exact parenthesized_at hr hchain (Faults.chain_within hr)
  | _ =>
    rw [Readers.operand_cons]
    rfl

theorem operands_agree (n : ℕ) : OperandsAgree stop limit all n := by
  induction n with
  | zero => exact ⟨by omega, by omega, by omega, by omega⟩
  | succ n ih =>
    exact ⟨fun _ _ => chain_agrees ih, chainFrom_agrees ih, fun _ _ => link_agrees ih,
      operand_agrees ih⟩

/-! ### Conditions -/

lemma literals_agrees (h : ts <:+ all) (hn : ts.length < n) :
    literals (marks stop all) start n (cursor all ts depth) =
      settled all depth (Readers.literals stop start ts) := by
  induction n generalizing ts with
  | zero => omega
  | succ n ih =>
    rw [literals, bind_ok (advance_at h)]
    rcases ts with _ | ⟨⟨l, o⟩, r⟩
    · rfl
    rw [Readers.literals_cons]
    cases l with
    | literal l =>
      have hr := Faults.tail_suffix h
      dsimp only [front]
      rw [List.tail_cons, bind_ok (advance_at hr)]
      rcases r with _ | ⟨⟨l', o'⟩, r⟩
      · rfl
      cases l' with
      | comma =>
        simp only [List.length_cons] at hn
        have hrest := ih (Faults.tail_suffix hr) (by omega)
        dsimp only
        rw [List.tail_cons]
        cases hl : Readers.literals stop start r with
        | error e =>
          rw [hl] at hrest
          exact bind_error hrest
        | ok x =>
          rw [hl] at hrest
          exact bind_ok hrest
      | _ => rfl
    | _ => rfl

lemma listLiteral_agrees {t : Token} (h : t :: ts <:+ all) (hn : ts.length < n) :
    listLiteral (marks stop all) n (cursor all (t :: ts) depth) =
      settled all depth (Readers.listLiteral stop t.offset ts) := by
  have hts := Faults.tail_suffix h
  unfold listLiteral
  rw [bind_ok (advance_at h), List.tail_cons, bind_ok (peek_at hts)]
  rcases ts with _ | ⟨u, r⟩
  · exact literals_agrees hts hn
  rw [Readers.listLiteral_cons]
  by_cases hu : u.lexeme = .closeBracket
  · rw [if_pos hu, if_pos (front_is.2 hu), bind_ok (advance_at hts)]
    rfl
  · rw [if_neg hu, if_neg (mt front_is.1 hu)]
    exact literals_agrees hts hn

lemma argument_agrees {verb : Verb} (h : ts <:+ all) (hn : 8 * ts.length + 4 < n) :
    argument (marks stop all) limit n verb (cursor all ts depth) =
      settled all depth (Readers.argument stop limit depth verb ts) := by
  have hagree : OperandsAgree stop limit all n := operands_agree n
  have hchain := hagree.chain .sum depth h hn
  unfold argument
  rw [bind_ok (peek_at h)]
  rcases ts with _ | ⟨t, r⟩
  · have hend : Readers.chain stop limit .sum depth [] = .error (.unexpectedEnd, stop) := by
      rw [Readers.chain_eq, Readers.link_sum, Readers.chain_eq, Readers.link_product,
        Readers.operand_nil]
    rw [hend] at hchain
    exact bind_error hchain
  rw [Readers.argument_cons]
  by_cases ht : t.lexeme = .openBracket
  · rw [if_pos ht, if_pos (front_is.2 ht)]
    by_cases hv : verb.isMembership = true
    · rw [if_pos hv, if_pos hv]
      rw [List.length_cons] at hn
      exact bind_pure_at _ (listLiteral_agrees h (by omega))
    · rw [if_neg hv, if_neg hv]
      rfl
  · rw [if_neg ht, if_neg (mt front_is.1 ht)]
    exact bind_pure_at _ hchain

lemma predicate_agrees (stop : ℕ) (limit : Option ℕ) (depth : ℕ) (h : ts <:+ all)
    (hn : 8 * ts.length + 4 < n) :
    predicate (marks stop all) limit n (cursor all ts depth) =
      settled all depth (Readers.predicate stop limit depth ts) := by
  have hagree : OperandsAgree stop limit all n := operands_agree n
  have hchain := hagree.chain .sum depth h hn
  rw [predicate, Readers.predicate_eq]
  refine bind_at hchain (Faults.chain_within h) (fun e he => by rw [he])
    fun left r hr hsuffix => ?_
  have hlen : r.length < ts.length := Readers.length_chain hr
  rw [hr, bind_ok (advance_at hsuffix)]
  rcases r with _ | ⟨⟨l, o⟩, r⟩
  · rfl
  rw [List.length_cons] at hlen
  have htail : r <:+ all := Faults.tail_suffix hsuffix
  rw [List.tail_cons]
  cases l with
  | relation op =>
    exact bind_pure_at _ (hagree.chain .sum depth htail (by simp only [Tier.rank]; omega))
  | verb v => exact bind_pure_at _ (argument_agrees htail (by omega))
  | _ => rfl

/-- No parenthesis is closed that was not opened: when the first one is read, one is open. -/
lemma opensOperand?_eq (level : ℕ) (ts : List Token) :
    opensOperand? (level + 1) (marks stop ts) = some (Parse.opensOperand level ts) := by
  induction ts generalizing level with
  | nil => rfl
  | cons t r ih =>
    obtain ⟨l, o⟩ := t
    cases l with
    | openParen => exact ih (level + 1)
    | closeParen =>
      have hsub : sub? (level + 1) 1 = some level := if_pos (Nat.le_add_left 1 level)
      have hmarks : marks stop (⟨.closeParen, o⟩ :: r) =
          ⟨some .closeParen, o⟩ :: marks stop r := rfl
      rw [hmarks, opensOperand?]
      dsimp only
      rw [hsub, Option.bind_some]
      cases level with
      | zero => cases r <;> rfl
      | succ level =>
        rw [if_neg (Nat.succ_ne_zero level)]
        exact ih level
    | _ => exact ih level

/-- With more than `n` steps the rules are read as the readers do. -/
structure RulesAgree (stop : ℕ) (limit : Option ℕ) (all : List Token) (n : ℕ) : Prop where
  group (depth : ℕ) {ts : List Token} (h : ts <:+ all) (hn : 8 * ts.length + 6 < n) :
    group (marks stop all) limit n (cursor all ts depth) =
      settled all depth (Readers.group stop limit depth ts)
  terms (depth : ℕ) (op : Connective) (rules : List Rule) {ts : List Token} (h : ts <:+ all)
    (hn : 8 * ts.length < n) :
    terms (marks stop all) limit n (some op) rules (cursor all ts depth) =
      settled all depth
        ((Readers.terms stop limit depth op ts).map fun x => ((some op, rules ++ x.1), x.2))
  term (depth : ℕ) {ts : List Token} (h : ts <:+ all) (hn : 8 * ts.length + 5 < n) :
    term (marks stop all) limit n (cursor all ts depth) =
      settled all depth (Readers.term stop limit depth ts)

lemma terms_agrees (ih : RulesAgree stop limit all n) {op : Connective} {rules : List Rule}
    (h : ts <:+ all) (hn : 8 * ts.length < n + 1) :
    terms (marks stop all) limit (n + 1) (some op) rules (cursor all ts depth) =
      settled all depth
        ((Readers.terms stop limit depth op ts).map fun x => ((some op, rules ++ x.1), x.2)) := by
  have hend (us : List Token) :
      (some (Except.ok ((some op, rules), cursor all us depth)) :
        Option (Except Fault ((Option Connective × List Rule) × Cursor))) =
      settled all depth (Except.ok ((some op, rules ++ []), us)) := by
    rw [List.append_nil]
    rfl
  rw [terms, bind_ok (peek_at h)]
  rcases ts with _ | ⟨⟨l, o⟩, r⟩
  · rw [Readers.terms_nil]
    exact hend []
  rw [Readers.terms_cons]
  cases l with
  | connective op' =>
    dsimp only [front]
    by_cases hop : op' = op
    · subst hop
      have hsame : (some op').filter (fun x => decide (x ≠ op')) = none := by simp
      have hr := Faults.tail_suffix h
      rw [List.length_cons] at hn
      have hterm := ih.term depth hr (by omega)
      rw [hsame, if_pos rfl]
      dsimp only
      rw [bind_ok (advance_at h), List.tail_cons]
      refine bind_at hterm (Faults.term_within hr) (fun e he => by rw [he]; rfl)
        fun first r₁ hf hsuffix => ?_
      have hlen : r₁.length < r.length := Readers.length_term hf
      rw [hf, ih.terms depth op' (rules ++ [first]) hsuffix (by omega)]
      dsimp only
      cases Readers.terms stop limit depth op' r₁ with
      | error e => rfl
      | ok x =>
        change settled all depth (.ok ((some op', rules ++ [first] ++ x.1), x.2)) = _
        rw [List.append_assoc]
        rfl
    · have hmixed : (some op).filter (fun x => decide (x ≠ op')) = some op := by
        simp [Ne.symm hop]
      rw [hmixed, if_neg hop]
      rfl
  | _ => exact hend _

/-- The first connective that is read is that of the group. -/
lemma terms_first {op : Connective} {o : ℕ} (h : ⟨.connective op, o⟩ :: ts <:+ all)
    (rules : List Rule) :
    terms (marks stop all) limit (n + 1) none rules (cursor all (⟨.connective op, o⟩ :: ts) depth) =
      terms (marks stop all) limit (n + 1) (some op) rules
        (cursor all (⟨.connective op, o⟩ :: ts) depth) := by
  have hsame : (some op).filter (fun x => decide (x ≠ op)) = none := by simp
  rw [terms, terms, bind_ok (peek_at h), bind_ok (peek_at h)]
  dsimp only [front]
  rw [hsame]
  rfl

lemma group_agrees (ih : RulesAgree stop limit all n) (h : ts <:+ all)
    (hn : 8 * ts.length + 6 < n + 1) :
    group (marks stop all) limit (n + 1) (cursor all ts depth) =
      settled all depth (Readers.group stop limit depth ts) := by
  have hterm := ih.term depth h (by omega)
  rw [group, Readers.group_eq]
  refine bind_at hterm (Faults.term_within h) (fun e he => by rw [he]) fun first r hf hsuffix => ?_
  have hlen : r.length < ts.length := Readers.length_term hf
  rw [hf]
  obtain ⟨n, rfl⟩ : ∃ m, n = m + 1 := ⟨n - 1, by omega⟩
  -- without a connective the first term is the only one
  have hsingle (hpeek : ∀ op, (front stop r).lexeme? ≠ some (.connective op)) :
      terms (marks stop all) limit (n + 1) none [first] (cursor all r depth) =
        some (.ok ((none, [first]), cursor all r depth)) := by
    rw [terms, bind_ok (peek_at hsuffix)]
    rcases hm : (front stop r).lexeme? with _ | l
    · rfl
    · cases l with
      | connective op => exact absurd hm (hpeek op)
      | _ => rfl
  rcases r with _ | ⟨⟨l, o⟩, r⟩
  · exact bind_ok (hsingle nofun)
  cases l with
  | connective op =>
    have hmore := ih.terms depth op [first] hsuffix (by omega)
    rw [← terms_first hsuffix] at hmore
    dsimp only
    cases hm : Readers.terms stop limit depth op (⟨.connective op, o⟩ :: r) with
    | error e =>
      rw [hm] at hmore
      exact bind_error hmore
    | ok x =>
      rw [hm] at hmore
      exact bind_ok hmore
  | _ => exact bind_ok (hsingle nofun)

lemma term_agrees (ih : RulesAgree stop limit all n) (h : ts <:+ all)
    (hn : 8 * ts.length + 5 < n + 1) :
    term (marks stop all) limit (n + 1) (cursor all ts depth) =
      settled all depth (Readers.term stop limit depth ts) := by
  have hpredicate := predicate_agrees stop limit depth h (by omega : 8 * ts.length + 4 < n)
  rw [term, bind_ok (peek_at h)]
  rcases ts with _ | ⟨⟨l, o⟩, r⟩
  · rw [Readers.term_nil]
    exact hpredicate
  by_cases hl : l = .openParen
  · subst hl
    have hopens : opensOperand? 0 (marks stop (⟨.openParen, o⟩ :: r)) =
        some (Parse.opensOperand 0 r) := opensOperand?_eq 0 r
    rw [if_pos (front_is.2 rfl), bind_ok rfl]
    dsimp only [cursor]
    rw [marks_drop h, hopens, bind_ok rfl]
    cases ho : Parse.opensOperand 0 r with
    | true =>
      rw [Readers.term_plain fun hc => Bool.noConfusion (ho.symm.trans hc.2)]
      exact hpredicate
    | false =>
      have hr := Faults.tail_suffix h
      rw [List.length_cons] at hn
      have hgroup := ih.group (depth + 1) hr (by omega)
      rw [Readers.term_enclosed ho, if_neg Bool.false_ne_true]
      exact (bind_ok (advance_at h)).trans (parenthesized_at hr hgroup (Faults.group_within hr))
  · rw [Readers.term_plain fun hc => hl hc.1, if_neg (mt front_is.1 hl)]
    exact hpredicate

theorem rules_agree (n : ℕ) : RulesAgree stop limit all n := by
  induction n with
  | zero => exact ⟨by omega, by omega, by omega⟩
  | succ n ih =>
    exact ⟨fun _ => group_agrees ih, fun _ _ _ => terms_agrees ih, fun _ => term_agrees ih⟩

/-- With enough steps the parser by positions is never stuck, and it is the parser. -/
theorem rule_agrees (stop : ℕ) (limit : Option ℕ) (hn : 8 * ts.length + 6 < n) :
    Option.map (Except.map Prod.fst) (rule (marks stop ts) limit n ⟨0, 0⟩) =
      some (Parse.rule stop limit ts) := by
  have hstart : (⟨0, 0⟩ : Cursor) = cursor ts ts 0 := by rw [cursor, Nat.sub_self]
  have hts : ts <:+ ts := List.suffix_refl ts
  have hagree : RulesAgree stop limit ts n := rules_agree n
  have hgroup := hagree.group 0 hts hn
  have hrest : Faults.Within stop ts (Readers.group stop limit 0 ts) := Faults.group_within hts
  rw [hstart, rule, bind_ok (peek_at hts)]
  rcases ts with _ | ⟨t, us⟩
  · rfl
  rw [if_neg (show (front stop (t :: us)).lexeme? ≠ none by nofun), Readers.rule_cons]
  rcases hg : Readers.group stop limit 0 (t :: us) with e | ⟨root, r⟩
  · rw [hg] at hgroup
    rw [bind_error hgroup]
    rfl
  rw [hg] at hgroup hrest
  have hsuffix : r <:+ t :: us := hrest
  rw [bind_ok hgroup]
  dsimp only
  rw [bind_ok (peek_at hsuffix)]
  rcases r with _ | ⟨⟨l, o⟩, vs⟩
  · rfl
  · cases l <;> rfl

end RecordRules.Positions
