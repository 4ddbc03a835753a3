import RecordRules.Proofs.PathGrammar
import RecordRules.Proofs.Positions.Path

/-!
Quoted texts as literals and as keys. The scan of a rule and the reading of a path find the end of a
quoted text each on its own, and go on from there in other surroundings: the one with tokens, the
other with a closing bracket. A text between quotes is a literal, and nothing else, exactly where it
is a key in brackets, and stands for the same in both.
-/

namespace RecordRules.QuotedKeys

open Text Token
open PathGrammar (Blanks KeyText PathText QuotedText StepText StepsText)

/-- A text between quotes. -/
def between (quote : Char) (body : String) : String :=
  String.singleton quote ++ body ++ String.singleton quote

variable {quote : Char} {b : Bool} {offset : ℕ} {key : String} {cs t u v : List Char}

lemma toList_between (quote : Char) (body : String) :
    (between quote body).toList = quote :: (body.toList ++ [quote]) := by
  simp [between]

lemma not_isBlank_of_isQuote (hq : isQuote quote = true) : isBlank quote = false := by
  obtain rfl | rfl := isQuote_iff.1 hq <;> decide

/-- The text ends in its closing quote, so that no blanks stand at the end of it. -/
lemma eq_nil_of_blanks (hq : isQuote quote = true) (h : u ++ v = t ++ [quote]) (hv : Blanks v) :
    v = [] := by
  induction v using List.reverseRecOn with
  | nil => rfl
  | append_singleton v c =>
    rw [← List.append_assoc] at h
    obtain rfl : c = quote := List.singleton_inj.1 (List.append_inj_right' h rfl)
    have hc : isBlank c = true := hv c (by simp)
    rw [not_isBlank_of_isQuote hq] at hc
    cases hc

/-! ### Literals -/

/-- Only blanks have no token. -/
lemma blanks_of_scanFrom (h : scanFrom offset b cs = .ok []) : Blanks cs := by
  fun_induction scanFrom offset b cs with
  | case1 => exact fun c hc => absurd hc List.not_mem_nil
  | case2 offset b c r hc ih => exact List.forall_mem_cons.2 ⟨hc, ih h⟩
  | case3 => cases h
  | case4 => cases h
  | case5 => cases h

lemma scanFrom_quoted {q : Quoted} (hq : isQuote quote = true)
    (h : Quoted.read quote cs = some q) : scanFrom offset b (quote :: cs) =
      (scanFrom (offset + bytes (quote :: q.text)) true q.rest).map
        (⟨.literal (.str (String.ofList q.value)), offset⟩ :: ·) := by
  have hs : scanOne b quote cs =
      .ok ⟨.literal (.str (String.ofList q.value)), quote :: q.text, q.rest⟩ := by
    rw [scanOne_quote hq, h]
  exact scanFrom_lexeme (not_isBlank_of_isQuote hq) hs

lemma scanFrom_iff (hq : isQuote quote = true) :
    scanFrom 0 false (quote :: (t ++ [quote])) = .ok [⟨.literal (.str key), 0⟩] ↔
      QuotedText quote (t ++ [quote]) key.toList := by
  constructor
  · intro h
    cases hread : Quoted.read quote (t ++ [quote]) with
    | none =>
      have hs : scanOne false quote (t ++ [quote]) =
          .error (.unterminatedString, quote :: (t ++ [quote])) := by
        rw [scanOne_quote hq, hread]
      rw [scanFrom_error (not_isBlank_of_isQuote hq) hs] at h
      cases h
    | some q =>
      rw [scanFrom_quoted hq hread] at h
      cases hrest : scanFrom (0 + bytes (quote :: q.text)) true q.rest with
      | error e =>
        rw [hrest] at h
        cases h
      | ok ts =>
        rw [hrest] at h
        cases h
        -- what follows the closing quote is blank, and ends in a quote if it is anything
        have htext := (Quoted.read_text hread).1
        have hnil := eq_nil_of_blanks hq htext (blanks_of_scanFrom hrest)
        rw [hnil, List.append_nil] at htext
        have hbody := PathGrammar.quotedText_of_read hread
        rw [String.toList_ofList]
        rwa [htext] at hbody
  · intro h
    have hread := PathGrammar.read_of_quotedText hq h []
    rw [List.append_nil] at hread
    rw [scanFrom_quoted hq hread, scanFrom_nil, String.ofList_toList]
    rfl

lemma scan_iff {body : String} (hq : isQuote quote = true) :
    Token.scan (between quote body) = .ok [⟨.literal (.str key), 0⟩] ↔
      QuotedText quote (body.toList ++ [quote]) key.toList := by
  rw [← scanFrom_iff hq, ← toList_between]
  exact ⟨scanFrom_of_scan, scan_of_scanFrom⟩

/-! ### Keys -/

lemma steps_of_pathText {name : String} {ss : List Segment} (h : PathText cs (.attr name :: ss)) :
    ∃ t, cs = name.toList ++ t ∧ StepsText t ss := by
  cases h with
  | mk hw h => exact ⟨_, by rw [String.toList_ofList], h⟩

lemma step_of_stepsText {s : Segment} (h : StepsText cs [s]) : StepText cs s := by
  cases h with
  | cons h hs =>
    cases hs
    rwa [List.append_nil]

lemma key_of_stepText {k : Key} (h : StepText cs (.index k)) :
    ∃ u t v, cs = '[' :: (u ++ (t ++ (v ++ [']']))) ∧ Blanks u ∧ KeyText t k ∧ Blanks v := by
  cases h with
  | index hu hk hv => exact ⟨_, _, _, rfl, hu, hk, hv⟩

/-- Between the brackets stands the quoted text and nothing else. -/
lemma quotedText_of_key (hq : isQuote quote = true) (hu : Blanks u) (hv : Blanks v)
    {w : List Char} (hk : KeyText w (.str key)) (h : quote :: (t ++ [quote]) = u ++ (w ++ v)) :
    QuotedText quote (t ++ [quote]) key.toList := by
  obtain rfl : u = [] := by
    cases u with
    | nil => rfl
    | cons c u =>
      obtain rfl : quote = c := (List.cons.inj h).1
      have hc : isBlank quote = true := hu quote List.mem_cons_self
      rw [not_isBlank_of_isQuote hq] at hc
      cases hc
  rw [List.nil_append] at h
  cases hk with
  | quoted hq' hbody =>
    obtain ⟨rfl, htext⟩ := List.cons.inj h
    obtain rfl := eq_nil_of_blanks hq htext.symm hv
    rwa [String.toList_ofList, htext, List.append_eq, List.append_nil]
  | ident hw =>
    obtain ⟨c, r, rfl, hc, -⟩ := PathGrammar.isIdent_iff.1 hw
    obtain rfl : quote = c := (List.cons.inj h).1
    have hstart : isIdentStart quote = false := by obtain rfl | rfl := isQuote_iff.1 hq <;> decide
    rw [hstart] at hc
    cases hc

lemma pathText_iff (hq : isQuote quote = true) :
    PathText ('m' :: '[' :: (quote :: (t ++ [quote]) ++ [']'])) [.attr "m", .index (.str key)] ↔
      QuotedText quote (t ++ [quote]) key.toList := by
  constructor
  · intro h
    obtain ⟨r, hr, hsteps⟩ := steps_of_pathText h
    obtain rfl := (List.cons.inj hr).2
    obtain ⟨u, w, v, hindex, hu, hk, hv⟩ := key_of_stepText (step_of_stepsText hsteps)
    have hinside := (List.cons.inj hindex).2
    rw [← List.append_assoc w, ← List.append_assoc u] at hinside
    exact quotedText_of_key hq hu hv hk (List.append_inj_left' hinside rfl)
  · intro h
    have hkey := KeyText.quoted hq h
    rw [String.ofList_toList] at hkey
    have hstep := StepText.index (u := []) (v := []) nofun hkey nofun
    have hpath := PathText.mk (w := ['m']) rfl (.cons hstep .nil)
    rwa [List.append_nil] at hpath

lemma toList_index (quote : Char) (body : String) : ("m[" ++ between quote body ++ "]").toList =
    'm' :: '[' :: (quote :: (body.toList ++ [quote]) ++ [']']) := by
  simp [toList_between]

lemma parse_iff {body : String} (hq : isQuote quote = true) :
    (∃ p, Path.parse ("m[" ++ between quote body ++ "]") = .ok p ∧
        p.segments = [.attr "m", .index (.str key)]) ↔
      QuotedText quote (body.toList ++ [quote]) key.toList := by
  rw [PathGrammar.parse_iff, toList_index, pathText_iff hq]

/-! ### By positions -/

lemma marks_inj {stop : ℕ} {ts us : List Token} :
    Positions.marks stop ts = Positions.marks stop us ↔ ts = us := by
  refine ⟨fun h => ?_, fun h => h ▸ rfl⟩
  refine List.map_injective_iff.2 ?_ (List.append_cancel_right h)
  rintro ⟨l, o⟩ ⟨l', o'⟩ h
  cases h
  rfl

lemma tokens?_iff {n : ℕ} (hn : cs.length < n) (ts : List Token) :
    Positions.tokens? cs n 0 false = some (.ok (Positions.marks (bytes cs) ts)) ↔
      scanFrom 0 false cs = .ok ts := by
  have htokens := Positions.tokens?_eq n [] cs false hn
  rw [List.nil_append, bytes_nil] at htokens
  rw [show Positions.tokens? cs n 0 false = _ from htokens]
  cases scanFrom 0 false cs with
  | error e => simp [Except.map]
  | ok us => simp [Except.map, marks_inj]

lemma path?_iff {text : String} {p : Path} :
    Positions.path? text = some (.ok p) ↔ Path.parse text = .ok p := by
  rw [Positions.path?_eq, Option.some.injEq, PathGrammar.parse_eq_ok]
  exact ⟨Path.text_of_read, fun h => h ▸ p.read_text⟩

/-! ### Both -/

/-- **Quoted texts are decoded alike** in rules and in paths: a text between quotes is one literal,
from its first character up to the end of the text, exactly where it is a key in brackets, and then
stands for the same text in both. That is so where the rules for quoted texts derive it. -/
theorem literal_iff_key (hq : isQuote quote = true) (body key : String) :
    (Token.scan (between quote body) = .ok [⟨.literal (.str key), 0⟩] ↔
      ∃ p, Path.parse ("m[" ++ between quote body ++ "]") = .ok p ∧
        p.segments = [.attr "m", .index (.str key)]) ∧
    (Token.scan (between quote body) = .ok [⟨.literal (.str key), 0⟩] ↔
      QuotedText quote (body.toList ++ [quote]) key.toList) ∧
    ∀ n, (between quote body).toList.length < n →
      (Positions.tokens? (between quote body).toList n 0 false =
          some (.ok [⟨some (.literal (.str key)), 0⟩, ⟨none, bytes (between quote body).toList⟩]) ↔
        ∃ p, Positions.path? ("m[" ++ between quote body ++ "]") = some (.ok p) ∧
          p.segments = [.attr "m", .index (.str key)]) := by
  refine ⟨(scan_iff hq).trans (parse_iff hq).symm, scan_iff hq, fun n hn => ?_⟩
  have hscan : scanFrom 0 false (between quote body).toList = .ok [⟨.literal (.str key), 0⟩] ↔
      QuotedText quote (body.toList ++ [quote]) key.toList := by
    rw [toList_between]
    exact scanFrom_iff hq
  simp only [path?_iff]
  rw [parse_iff hq, ← hscan]
  exact tokens?_iff hn [⟨.literal (.str key), 0⟩]

/-- An escaped quote, a quote of the other kind, a bracket, and a backslash that escapes nothing. -/
theorem literal_iff_key_mixed :
    isQuote '\'' = true ∧
    Token.scan (between '\'' "\\'\"]\\n") = .ok [⟨.literal (.str "'\"]\\n"), 0⟩] ∧
      ∃ p, Path.parse ("m[" ++ between '\'' "\\'\"]\\n" ++ "]") = .ok p ∧
        p.segments = [.attr "m", .index (.str "'\"]\\n")] := by
  have hq : isQuote '\'' = true := rfl
  have htext : QuotedText '\'' ("\\'\"]\\n".toList ++ ['\'']) "'\"]\\n".toList :=
    .escape rfl (.other (by decide) (by decide) (.other (by decide) (by decide)
      (.backslash rfl (.other (by decide) (by decide) .close))))
  have hscan := (literal_iff_key hq _ _).2.1.2 htext
  exact ⟨hq, hscan, (literal_iff_key hq _ _).1.1 hscan⟩

end RecordRules.QuotedKeys
