/-
Texts for tokens. Every token that is cut out of a text is spelled by that part of
the text, wherever it stands before a blank; so the tokens of one text may be put
together with others in a new one.
-/
import DetectionPlan.Proofs.Sql.Lexeme
import DetectionPlan.Proofs.Sql.Local.Core
import DetectionPlan.Proofs.Sql.Condition

namespace DetectionPlan.Sql

/-- Whether a text is a name that stands without quotes. -/
def Grammar.isPlainName (g : Grammar) (name : String) : Bool :=
  match name.toList with
  | [] => false
  | c :: rest => g.isNameStart c && !c.isDigit && rest.all g.isNamePart

namespace Lexer

variable {s : ParserSettings} {g : Grammar} {c : Char} {cs v w : List Char} {t : Token}
variable {ts us : List Token}

/-! ## The tokens of a text -/

theorem next_length {t : Option Token} (h : next s c cs = .ok (t, v)) : v.length ≤ cs.length := by
  obtain ⟨u, rfl, -⟩ := next_parts h
  simp

/-- With more steps than a text is long, its tokens are the same. -/
theorem scanIn_enough {n m : Nat} (hn : cs.length ≤ n) (hm : cs.length ≤ m) :
    scanIn s n cs = scanIn s m cs := by
  induction n generalizing cs m with
  | zero =>
    obtain rfl := List.eq_nil_of_length_eq_zero (Nat.le_zero.mp hn)
    cases m <;> rfl
  | succ n ih =>
    match cs with
    | [] => cases m <;> rfl
    | c :: cs =>
      obtain ⟨m, rfl⟩ : ∃ m', m = m' + 1 := ⟨m - 1, by simp at hm; omega⟩
      simp only [List.length_cons] at hn hm
      rw [scanIn, scanIn]
      cases hc : next s c cs with
      | error f => rfl
      | ok r =>
        have shorter := next_length hc
        have same : scanIn s n r.2 = scanIn s m r.2 := ih (by omega) (by omega)
        change (do let tokens ← scanIn s n r.2; .ok (r.1.toList ++ tokens)) = _
        rw [same]
        rfl

/-- The tokens of a text. -/
def tokensOf (s : ParserSettings) (cs : List Char) : Except SyntaxFault (List Token) :=
  scanIn s cs.length cs

theorem scan_eq (text : String) : scan s text = tokensOf s text.toList := by
  rw [scan, tokensOf, String.length_toList]

theorem tokensOf_cons {t : Option Token} (h : next s c cs = .ok (t, v)) :
    tokensOf s (c :: cs) = (tokensOf s v).map (t.toList ++ ·) := by
  have same : scanIn s cs.length v = tokensOf s v := scanIn_enough (next_length h) (Nat.le_refl _)
  rw [tokensOf, List.length_cons, scanIn, h]
  change (do let tokens ← scanIn s cs.length v; .ok (t.toList ++ tokens)) = _
  rw [same]
  cases tokensOf s v <;> rfl

theorem tokensOf_cons_ok {us : List Token} (h : tokensOf s (c :: cs) = .ok us) :
    ∃ t v ts, next s c cs = .ok (t, v) ∧ tokensOf s v = .ok ts ∧ us = t.toList ++ ts := by
  cases hc : next s c cs with
  | error f =>
    rw [tokensOf, List.length_cons, scanIn, hc] at h
    cases h
  | ok r =>
    rw [tokensOf_cons hc] at h
    obtain ⟨ts, hts, rfl⟩ := Outcome.map_ok_iff.mp h
    exact ⟨r.1, r.2, ts, rfl, hts, rfl⟩

theorem isNameQuote_cases (h : g.isNameQuote c) : c = '"' ∨ c = '\x60' ∨ c = '[' := by
  cases g <;> simp [Grammar.isNameQuote] at h <;> tauto

/-- Characters that stand for nothing but themselves, whatever follows. -/
def standsAlone (c : Char) : Bool :=
  c == ' ' || c == '(' || c == ')' || c == '=' || c == '<' || c == '>' || c == ',' || c == '+' || c == '*'

theorem next_of_standsAlone (h : standsAlone c) (cs : List Char) :
    next s c cs = .ok (wordOrMark s.grammar c cs) := by
  have cases_ : c = ' ' ∨ c = '(' ∨ c = ')' ∨ c = '=' ∨ c = '<' ∨ c = '>' ∨ c = ',' ∨ c = '+' ∨
      c = '*' := by
    simpa [standsAlone, or_assoc] using h
  have plain : s.grammar.isNameQuote c = false := by
    rw [Bool.eq_false_iff]
    intro quote
    rcases isNameQuote_cases quote with rfl | rfl | rfl <;> cases h
  rw [next_eq, nextPlain, nextMark]
  rcases cases_ with rfl | rfl | rfl | rfl | rfl | rfl | rfl | rfl | rfl <;> simp [plain, startsLineComment]

/-- What holds of each token that is cut off the text or off what is left of it holds of all its
tokens. -/
theorem forall_tokens_of_suffix {P : Token → Prop} {text : String}
    (h : ∀ {c cs t v}, c :: cs <:+ text.toList → next s c cs = .ok (some t, v) → P t)
    (ht : scan s text = .ok ts) : ∀ t ∈ ts, P t := by
  have all (n : Nat) {cs : List Char} {ts : List Token} (hn : cs.length ≤ n) (left : cs <:+ text.toList)
      (ht : tokensOf s cs = .ok ts) : ∀ t ∈ ts, P t := by
    induction n generalizing cs ts with
    | zero =>
      obtain rfl := List.eq_nil_of_length_eq_zero (Nat.le_zero.mp hn)
      cases ht
      nofun
    | succ n ih =>
      match cs with
      | [] =>
        cases ht
        nofun
      | c :: cs =>
        obtain ⟨first, v, more, hc, hv, rfl⟩ := tokensOf_cons_ok ht
        have := next_length hc
        intro t mem
        rcases List.mem_append.mp mem with here | later
        · obtain rfl : first = some t := by simpa using here
          exact h left hc
        · obtain ⟨u, rfl, -⟩ := next_parts hc
          have rest : v <:+ c :: (u ++ v) := List.suffix_append (c :: u) v
          exact ih (by simp at hn; omega) (rest.trans left) hv t later
  rw [scan_eq] at ht
  exact all _ (Nat.le_refl _) List.suffix_rfl ht

/-- What holds of each token that is cut off a text holds of all its tokens. -/
theorem forall_tokens {P : Token → Prop} (h : ∀ {c cs t v}, next s c cs = .ok (some t, v) → P t)
    {text : String} (ht : scan s text = .ok ts) : ∀ t ∈ ts, P t :=
  forall_tokens_of_suffix (fun _ => h) ht

theorem next_blank (s : ParserSettings) (w : List Char) : next s ' ' w = .ok (none, w) := by
  have long : w.head?.bind (longMark? ' ') = none := by cases w.head? <;> rfl
  have short : mark? ' ' = none := rfl
  have blank : isBlank ' ' = true := rfl
  rw [next_of_standsAlone rfl, wordOrMark, long]
  simp [short, isNameStart_blank, blank]

/-! ## Spellings -/

/-- The text `cs` gives the tokens `ts` wherever it stands before a blank. -/
def Spelled (s : ParserSettings) (ts : List Token) (cs : List Char) : Prop :=
  ∀ w, tokensOf s (cs ++ ' ' :: w) = (tokensOf s w).map (ts ++ ·)

/-- Some text gives the token. -/
def Spellable (s : ParserSettings) (t : Token) : Prop := ∃ cs, Spelled s [t] cs

theorem Spelled.nil : Spelled s [] [] := by
  intro w
  rw [List.nil_append, tokensOf_cons (next_blank s w)]
  rfl

theorem Spelled.append {us : List Token} {ds : List Char} (h : Spelled s ts cs) (h' : Spelled s us ds) :
    Spelled s (ts ++ us) (cs ++ ' ' :: ds) := by
  intro w
  rw [List.append_assoc, List.cons_append, h, h']
  cases tokensOf s w with
  | error f => rfl
  | ok more => exact congrArg Except.ok (List.append_assoc ..).symm

theorem Spelled.of_next (h : ∀ w, next s c (cs ++ ' ' :: w) = .ok (some t, ' ' :: w)) :
    Spelled s [t] (c :: cs) := by
  intro w
  rw [List.cons_append, tokensOf_cons (h w), tokensOf_cons (next_blank s w)]
  cases tokensOf s w <;> rfl

/-- A token that is cut out of a text is spelled by that part of it. -/
theorem spellable_of_next (h : next s c cs = .ok (some t, v)) : Spellable s t := by
  obtain ⟨u, -, again⟩ := next_parts h
  exact ⟨c :: u, .of_next (again nofun)⟩

/-- Tokens that some text gives are the tokens of one. -/
theorem exists_text (h : ∀ t ∈ ts, Spellable s t) : ∃ text, scan s text = .ok ts := by
  have spelled : ∃ cs, Spelled s ts cs := by
    induction ts with
    | nil => exact ⟨[], .nil⟩
    | cons t ts ih =>
      obtain ⟨cs, first⟩ := h t (List.mem_cons_self ..)
      obtain ⟨ds, more⟩ := ih fun u hu => h u (List.mem_cons_of_mem _ hu)
      exact ⟨cs ++ ' ' :: ds, first.append more⟩
  obtain ⟨cs, hcs⟩ := spelled
  refine ⟨String.ofList (cs ++ [' ']), ?_⟩
  rw [scan_eq, String.toList_ofList, hcs []]
  exact congrArg Except.ok (List.append_nil ts)

/-! ## Marks -/

theorem spellable_mark {m : Mark} (hc : standsAlone c) (hm : mark? c = some m) : Spellable s (.mark m) := by
  refine ⟨[c], .of_next fun w => ?_⟩
  have long : (' ' :: w).head?.bind (longMark? c) = none := longMark_blank c
  rw [List.nil_append, next_of_standsAlone hc, wordOrMark, long]
  simp only [hm]

theorem spellable_notEq : Spellable s (.mark .notEq) :=
  ⟨['<', '>'], .of_next fun _ => next_of_standsAlone rfl _⟩

theorem spellable_period : Spellable s (.mark .period) := by
  refine ⟨['.'], .of_next fun w => ?_⟩
  have plain : s.grammar.isNameQuote '.' = false := by
    rw [Bool.eq_false_iff]
    intro quote
    rcases isNameQuote_cases quote with h | h | h <;> cases h
  have read : number s.grammar ('.' :: ' ' :: w) = (.mark .period, ' ' :: w) := rfl
  have literal : next s '.' (' ' :: w) = nextPlain s '.' (' ' :: w) := rfl
  rw [List.nil_append, literal, nextPlain, read]
  simp [plain]

/-! ## Words -/

/-- Characters that no name starts with. -/
def noNames : List Char :=
  ['\x27', '"', '\x60', '[', ']', '.', '-', '/', '(', ')', '\x7d', ',', ';', '+', '*', '%', '=', '<',
    '>', ':', '|', '!']

theorem not_mem_noNames (h : g.isNameStart c) : c ∉ noNames := by
  intro hc
  have none : ∀ g : Grammar, noNames.all fun c => !g.isNameStart c := by
    intro g
    cases g <;> decide +kernel
  have other := List.all_eq_true.mp (none g) c hc
  rw [h] at other
  cases other

theorem isNamePart_quote (g : Grammar) : g.isNamePart '\x27' = false := by cases g <;> decide +kernel

theorem hasHashComments_of_isNameStart (h : g.isNameStart '#') : g.hasHashComments = false := by
  revert h
  cases g <;> decide +kernel

theorem longMark_of_name (hc : c ∉ noNames) (d : Char) : longMark? c d = none := by
  unfold longMark?
  split <;> first | rfl | exact absurd (by decide) hc

theorem mark_of_name (hc : c ∉ noNames) : mark? c = none := by
  unfold mark?
  split <;> first | rfl | exact absurd (by decide) hc

/-- Characters that part a word or a number from what follows it. -/
def isBreak (c : Char) : Bool := c == ' ' || c == '(' || c == ')'

theorem isBreak_cases (h : isBreak c) : c = ' ' ∨ c = '(' ∨ c = ')' := by
  simpa [isBreak, or_assoc] using h

/-- Characters that part a name from what follows it. -/
def endsName (c : Char) : Bool := isBreak c || c == '.' || c == ','

theorem endsName_of_isBreak (h : isBreak c) : endsName c := by simp [endsName, h]

theorem isNamePart_of_endsName (h : endsName c) : g.isNamePart c = false := by
  have ends : c = ' ' ∨ c = '(' ∨ c = ')' ∨ c = '.' ∨ c = ',' := by
    simpa [endsName, isBreak, or_assoc] using h
  rcases ends with rfl | rfl | rfl | rfl | rfl <;> cases g <;> decide +kernel

theorem beq_of_name (hc : c ∉ noNames) {q : Char} (hq : q ∈ noNames) : (c == q) = false := by
  rw [beq_eq_false_iff_ne]
  rintro rfl
  exact hc hq

theorem isNameQuote_of_name (hc : c ∉ noNames) : g.isNameQuote c = false := by
  rw [Bool.eq_false_iff]
  intro quote
  rcases isNameQuote_cases quote with rfl | rfl | rfl <;> exact hc (by decide)

theorem startsLineComment_of_name (h : g.isNameStart c) (cs : List Char) :
    startsLineComment g c cs = false := by
  have special := not_mem_noNames h
  have hash : (c == '#' && g.hasHashComments) = false := by
    by_cases hc : c = '#'
    · subst hc
      rw [hasHashComments_of_isNameStart h]
      rfl
    · simp [hc]
  simp only [startsLineComment, hash, beq_of_name special (q := '-') (by decide),
    beq_of_name special (q := '/') (by decide), Bool.false_and, Bool.or_self]

/-- No quote stands behind a letter of a name, so the letter marks no string. -/
theorem head?_ne_quote {rest : List Char} (hr : ∀ d ∈ rest, g.isNamePart d) (hw : w.head?.all endsName) :
    (rest ++ w).head? ≠ some '\x27' := by
  intro quote
  cases rest with
  | nil =>
    rw [List.nil_append] at quote
    rw [quote] at hw
    cases hw
  | cons d rest =>
    obtain rfl : d = '\x27' := by simpa using quote
    have part := hr _ (List.mem_cons_self ..)
    rw [isNamePart_quote] at part
    cases part

/-- What starts a name starts nothing else. -/
theorem next_of_name (h : s.grammar.isNameStart c) (hd : c.isDigit = false) {rest : List Char}
    (hr : ∀ d ∈ rest, s.grammar.isNamePart d) (hw : w.head?.all endsName) : next s c (rest ++ w) =
      .ok (some (.ofWord (String.ofList (c :: rest))), w) := by
  have special := not_mem_noNames h
  have other (q : Char) (hq : q ∈ noNames) : (c == q) = false := beq_of_name special hq
  have noLiteral (b : Bool) : ¬(b && (rest ++ w).head? == some '\x27') = true := by
    simp only [Bool.and_eq_true, beq_iff_eq]
    exact fun literal => head?_ne_quote hr hw literal.2
  have long : (rest ++ w).head?.bind (longMark? c) = none := by
    cases (rest ++ w).head? with
    | none => rfl
    | some d => exact longMark_of_name special d
  have ends : w.head?.all (!s.grammar.isNamePart ·) := by
    cases hd : w.head? with
    | none => rfl
    | some d =>
      rw [hd] at hw
      simpa using isNamePart_of_endsName hw
  obtain ⟨run, left⟩ := span_append hr ends
  rw [next_eq, if_neg (noLiteral _), if_neg (noLiteral _), nextPlain, nextMark]
  simp only [other '\x27' (by decide), other '"' (by decide), other '.' (by decide), other '/' (by decide),
    isNameQuote_of_name special, hd, startsLineComment_of_name h, Bool.false_and, Bool.or_self,
    Bool.false_eq_true, if_false]
  simp only [wordOrMark, long, mark_of_name special, h, if_true, run, left]

/-- Whether a word is written in capital letters, as keywords are. -/
def isCapitals (word : String) : Bool :=
  !word.toList.isEmpty && word.toList.all fun c => 'A' ≤ c && c ≤ 'Z'

theorem isName_capital (g : Grammar) {c : Char} (h : 'A' ≤ c ∧ c ≤ 'Z') :
    g.isNameStart c ∧ c.isDigit = false ∧ g.isNamePart c := by
  have capitals : ∀ n : Fin 26, ∀ g : Grammar, g.isNameStart (Char.ofNat (65 + n)) ∧
      (Char.ofNat (65 + n)).isDigit = false ∧ g.isNamePart (Char.ofNat (65 + n)) := by
    intro n g
    revert n
    cases g <;> decide +kernel
  have low : 65 ≤ c.toNat := h.1
  have high : c.toNat ≤ 90 := h.2
  have same : Char.ofNat (65 + (c.toNat - 65)) = c := by
    rw [Nat.add_sub_cancel' low, Char.ofNat_toNat]
  exact same ▸ capitals ⟨c.toNat - 65, by omega⟩ g

theorem isPlainName_of_isCapitals (g : Grammar) {word : String} (h : isCapitals word) : g.isPlainName word := by
  obtain ⟨given, all⟩ := Bool.and_eq_true_iff.mp h
  have capitals : ∀ c ∈ word.toList, 'A' ≤ c ∧ c ≤ 'Z' := by simpa using all
  unfold Grammar.isPlainName
  cases hw : word.toList with
  | nil => simp [hw] at given
  | cons c rest =>
    rw [hw] at capitals
    obtain ⟨first, others⟩ := List.forall_mem_cons.mp capitals
    obtain ⟨start, digit, -⟩ := isName_capital g first
    simp only [start, digit, Bool.not_false, Bool.true_and, List.all_eq_true]
    exact fun d hd => (isName_capital g (others d hd)).2.2

theorem exists_cons_of_isPlainName {name : String} (h : g.isPlainName name) : ∃ c rest,
    name.toList = c :: rest ∧ g.isNameStart c ∧ c.isDigit = false ∧ ∀ d ∈ rest, g.isNamePart d := by
  unfold Grammar.isPlainName at h
  split at h
  · cases h
  next c rest hn =>
    simp only [Bool.and_eq_true, Bool.not_eq_true', List.all_eq_true] at h
    exact ⟨c, rest, hn, h.1.1, h.1.2, h.2⟩

theorem spellable_word {name : String} (h : s.grammar.isPlainName name) : Spellable s (.ofWord name) := by
  obtain ⟨c, rest, hn, start, digit, parts⟩ := exists_cons_of_isPlainName h
  have same : String.ofList (c :: rest) = name := by rw [← hn, String.ofList_toList]
  exact ⟨c :: rest, .of_next fun w => by rw [next_of_name start digit parts rfl, same]⟩

/-! ## Strings -/

theorem untilQuote_plain {unescape backslash : Bool} {q : Char} {text : List Char}
    (quote : q ∉ text) (slash : backslash → '\\' ∉ text) (hv : v.head? ≠ some q) :
    untilQuote unescape backslash q (text ++ q :: v) = some (text, v) := by
  induction text with
  | nil => exact untilQuote_ends hv
  | cons c text ih =>
    simp only [List.mem_cons, not_or] at quote slash
    have more := ih quote.2 fun escapes => (slash escapes).2
    have open_ : (c == q) = false := by simpa using Ne.symm quote.1
    have plain : (backslash && c == '\\') = false := by
      rw [Bool.and_eq_false_imp]
      exact fun escapes => by simpa using Ne.symm (slash escapes).1
    obtain ⟨d, rest, hd⟩ : ∃ d rest, text ++ q :: v = d :: rest := by cases text <;> exact ⟨_, _, rfl⟩
    rw [hd] at more
    rw [List.cons_append, hd, untilQuote]
    simp only [open_, plain, Bool.false_eq_true, if_false, more]
    rfl

/-- A string is spelled by what is read as its text up to the closing quote. -/
theorem spellable_string {value : String} {body : List Char}
    (h : ∀ w, untilQuote s.unescape s.grammar.hasBackslashEscapes '\x27' (body ++ '\x27' :: ' ' :: w) =
      some (value.toList, ' ' :: w)) (first : s.grammar.hasTripleQuotes → body.head? ≠ some '\x27') :
    Spellable s (.string .single value) := by
  refine ⟨'\x27' :: (body ++ ['\x27']), .of_next fun w => ?_⟩
  have single : ¬(s.grammar.hasTripleQuotes && (body ++ '\x27' :: ' ' :: w).take 2 == ['\x27', '\x27']) = true := by
    intro triple
    obtain ⟨has, pair⟩ := Bool.and_eq_true_iff.mp triple
    match body with
    | [] => simp at pair
    | c :: body =>
      refine first has ?_
      simp at pair
      simp [pair.1]
  have read : nextPlain s '\x27' (body ++ '\x27' :: ' ' :: w) = .ok (some (.string .single value), ' ' :: w) := by
    have quote : ('\x27' == '\x27' || ('\x27' == '"' && !s.grammar.isNameQuote '\x27')) = true := rfl
    rw [nextPlain, if_pos quote, string, if_neg single, h]
    simp [quoted]
  rw [List.append_assoc, List.singleton_append]
  exact read

theorem spellable_plain {value : String} (quote : '\x27' ∉ value.toList) (slash : '\\' ∉ value.toList) :
    Spellable s (.string .single value) := by
  refine spellable_string (fun w => untilQuote_plain quote (fun _ => slash) nofun) fun _ first => quote ?_
  exact List.mem_of_mem_head? first

/-! ## Settings -/

theorem scanIn_limit (limit n : Nat) (cs : List Char) :
    scanIn { s with recursionLimit := limit } n cs = scanIn s n cs := by
  induction n generalizing cs with
  | zero => cases cs <;> rfl
  | succ n ih =>
    cases cs with
    | nil => rfl
    | cons c cs =>
      simp only [scanIn, ih]
      rfl

/-! ## Keywords -/

/-- Only words without quotes are keywords, by their letters. -/
def KeywordSpelled (t : Token) : Prop :=
  ∀ name k, t = .word name (some k) → name.quote = none ∧ Keyword.ofWord? name.text = some k

theorem keywordSpelled_ofWord (word : String) : KeywordSpelled (.ofWord word) := by
  intro name k h
  obtain ⟨rfl, found⟩ := Token.word.inj h
  exact ⟨rfl, found⟩

theorem quoted_keywordSpelled {make : String → Token} {read : Option (List Char × List Char)}
    (hm : ∀ text, KeywordSpelled (make text)) (h : quoted make read = .ok (some t, v)) :
    KeywordSpelled t := by
  obtain ⟨text, -, made⟩ := quoted_ok h
  rw [Option.some.inj made]
  exact hm _

theorem string_keywordSpelled (kind : StringKind) (text : String) :
    KeywordSpelled (.string kind text) := nofun

theorem number_keywordSpelled (digits : String) (long : Bool) :
    KeywordSpelled (.number digits long) := nofun

theorem mark_keywordSpelled (m : Mark) : KeywordSpelled (.mark m) := nofun

theorem numberEnd_keywordSpelled (digits cs : List Char) : KeywordSpelled (numberEnd g digits cs).1 := by
  simp only [numberEnd]
  split
  · exact keywordSpelled_ofWord _
  · unfold numberMark
    split <;> exact number_keywordSpelled _ _

theorem numeral_keywordSpelled (cs : List Char) : KeywordSpelled (number g cs).1 := by
  rw [number_eq]
  simp only
  split
  · exact string_keywordSpelled _ _
  · simp only [numberPoint]
    split
    · exact mark_keywordSpelled _
    · exact numberEnd_keywordSpelled _ _

theorem wordOrMark_keywordSpelled (h : (wordOrMark g c cs).1 = some t) : KeywordSpelled t := by
  unfold wordOrMark at h
  split at h
  · cases h
    nofun
  split at h
  · cases h
    nofun
  split at h
  · cases h
    exact keywordSpelled_ofWord _
  split at h
  · cases h
  · cases h
    nofun

theorem next_keywordSpelled (h : next s c cs = .ok (some t, v)) : KeywordSpelled t := by
  rw [next_eq] at h
  split at h
  · exact quoted_keywordSpelled (string_keywordSpelled _) h
  split at h
  · exact quoted_keywordSpelled (string_keywordSpelled _) h
  unfold nextPlain at h
  split at h
  · unfold string at h
    split at h <;> exact quoted_keywordSpelled (string_keywordSpelled _) h
  split at h
  · refine quoted_keywordSpelled ?_ h
    intro text name k same
    cases same
  split at h
  · obtain ⟨made, -⟩ := Prod.mk.inj (Except.ok.inj h)
    rw [← Option.some.inj made]
    exact numeral_keywordSpelled _
  unfold nextMark at h
  split at h
  · cases h
  split at h
  · split at h <;> cases h
  · exact wordOrMark_keywordSpelled (congrArg Prod.fst (Except.ok.inj h))

end Lexer

end DetectionPlan.Sql
