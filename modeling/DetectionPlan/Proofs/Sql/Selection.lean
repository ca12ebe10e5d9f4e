/-
Queries for all columns of a table and the rows that satisfy a condition. The text of such
a query is read as the query, if that of the condition is read as the condition.
-/
import DetectionPlan.Proofs.Sql.Filter
import DetectionPlan.Proofs.Sql.Scanning

namespace DetectionPlan.Sql

/-- All columns of the rows of a table that satisfy a condition. -/
def Query.allWhere (source : String) (filter : Expr) : Query := .ofBody <| .select {
  isDistinct := false
  items := [⟨.star [], none⟩]
  tables := [⟨.named [⟨source, none⟩] none, []⟩]
  filter := some filter
  groups := .by []
  having := none }

/-- Whether a word is read as the whole name of a table. -/
structure IsTable (g : Grammar) (word : String) : Prop where
  plain : g.isPlainName word
  whole : g.splitsQuotedNames → word.splitOn "." = [word]

theorem text_allWhere (source : String) (filter : Expr) :
    (Query.allWhere source filter).text = "SELECT * FROM " ++ source ++ " WHERE " ++ filter.text := by
  have clauses : (Query.allWhere source filter).text =
      "" ++ ("SELECT " ++ "" ++ commas [String.join [] ++ "*" ++ ""] ++
        (" FROM " ++ commas [nameText [⟨source, none⟩] ++ "" ++ String.join []]) ++
        (" WHERE " ++ filter.text) ++ "" ++ "") ++ "" ++ "" ++ "" ++ "" := rfl
  rw [clauses, ← String.toList_inj]
  simp [commas, nameText, Ident.quoted, String.join]

/-- The tokens of a query in front of those of its condition. -/
def allWhereTokens (source : String) : List Token :=
  [.word ⟨"SELECT", none⟩ (some .SELECT), .mark .star, .word ⟨"FROM", none⟩ (some .FROM), .ofWord source,
    .word ⟨"WHERE", none⟩ (some .WHERE)]

namespace Lexer

variable {s : ParserSettings} {source : String} {w : List Char} {ts : List Token}

theorem tokensOf_allWhere (plain : s.grammar.isPlainName source) (h : tokensOf s w = .ok ts) :
    tokensOf s (("SELECT * FROM " ++ source ++ " WHERE ").toList ++ w) =
      .ok (allWhereTokens source ++ ts) := by
  have text : ("SELECT * FROM " ++ source ++ " WHERE ").toList ++ w = "SELECT".toList ++ ' ' :: '*' :: ' ' ::
      ("FROM".toList ++ ' ' :: (source.toList ++ ' ' :: ("WHERE".toList ++ ' ' :: w))) := by
    simp [String.toList_append]
  have words : allWhereTokens source = [.ofWord "SELECT", .mark .star, .ofWord "FROM", .ofWord source,
      .ofWord "WHERE"] := by
    have select : Token.ofWord "SELECT" = .word ⟨"SELECT", none⟩ (some .SELECT) := by decide +kernel
    have from_ : Token.ofWord "FROM" = .word ⟨"FROM", none⟩ (some .FROM) := by decide +kernel
    have where_ : Token.ofWord "WHERE" = .word ⟨"WHERE", none⟩ (some .WHERE) := by decide +kernel
    rw [select, from_, where_]
    rfl
  rw [text, words]
  simp only [List.cons_append, List.nil_append]
  rw [tokensOf_name (isPlainName_of_isCapitals _ rfl) rfl, tokensOf_blank, tokensOf_mark rfl rfl,
    tokensOf_name (isPlainName_of_isCapitals _ rfl) rfl, tokensOf_blank, tokensOf_name plain rfl, tokensOf_blank,
    tokensOf_name (isPlainName_of_isCapitals _ rfl) rfl, tokensOf_blank]
  exact h

end Lexer

namespace Parser

variable {s : ParserSettings} {inner : Inner} {source : String} {e : Expr} {ts : List Token}

theorem tableList_read (h : IsTable s.grammar source) (name : Ident) :
    tableList s inner (.ofWord source :: .word name (some .WHERE) :: ts) =
      .ok ([⟨.named [⟨source, none⟩] none, []⟩], .word name (some .WHERE) :: ts) := by
  have whole : tableName s.grammar (.ofWord source :: .word name (some .WHERE) :: ts) =
      .ok ([⟨source, none⟩], .word name (some .WHERE) :: ts) := by
    have points : pointSeparatedIn (ts.length + 2) (.ofWord source :: .word name (some .WHERE) :: ts) =
        .ok ([⟨source, none⟩], .word name (some .WHERE) :: ts) := rfl
    rw [tableName, get_bind_apply]
    refine (bind_of_ok points).trans ?_
    cases splits : s.grammar.splitsQuotedNames with
    | false => rfl
    | true => simp [h.whole splits]
  have named : table s inner (.ofWord source :: .word name (some .WHERE) :: ts) =
      .ok (.named [⟨source, none⟩] none, .word name (some .WHERE) :: ts) := by
    have noParen : (some (Token.ofWord source) == some (.mark .leftParen)) = false := rfl
    rw [table, get_bind_apply, tableIn, bind_of_ok peek_apply, List.head?_cons, noParen]
    exact (bind_of_ok whole).trans rfl
  have joins : tableJoins s inner (table s inner) (.ofWord source :: .word name (some .WHERE) :: ts) =
      .ok (⟨.named [⟨source, none⟩] none, []⟩, .word name (some .WHERE) :: ts) := by
    rw [tableJoins, bind_of_ok named]
    rfl
  rw [tableList, commaSeparated, get_bind_apply, List.length_cons, commaSeparatedIn, bind_of_ok joins]
  rfl

/-- The tokens of a query are read if those of its condition are. -/
theorem select_read (h : IsTable s.grammar source) (read : inner.expr 0 ts = .ok (e, [])) :
    select s inner (allWhereTokens source ++ ts) = .ok
      (⟨false, [⟨.star [], none⟩], [⟨.named [⟨source, none⟩] none, []⟩], some e, .by [], none⟩, []) := by
  let behind : List Token := .word ⟨"WHERE", none⟩ (some .WHERE) :: ts
  have tables : Parser.after .FROM (tableList s inner)
      (.word ⟨"FROM", none⟩ (some .FROM) :: .ofWord source :: behind) =
        .ok (some [⟨.named [⟨source, none⟩] none, []⟩], behind) := by
    rw [Parser.after, bind_of_ok (skipWord_self _ _)]
    exact (bind_of_ok (tableList_read h _)).trans rfl
  have head : selectHead s inner (allWhereTokens source ++ ts) =
      .ok ((false, [⟨.star [], none⟩], [⟨.named [⟨source, none⟩] none, []⟩]), behind) := by
    let fromTokens : List Token := .word ⟨"FROM", none⟩ (some .FROM) :: .ofWord source :: behind
    have select : expectWord .SELECT (allWhereTokens source ++ ts) = .ok ((), .mark .star :: fromTokens) := rfl
    have all : distinctRows (.mark .star :: fromTokens) = .ok (false, .mark .star :: fromTokens) := rfl
    have items : commaSeparated (s.trailingCommas || s.grammar.allowsTrailingCommaInProjection)
        (selectItem inner) (.mark .star :: fromTokens) = .ok ([⟨.star [], none⟩], fromTokens) := rfl
    rw [selectHead, bind_of_ok select, bind_of_ok all, bind_of_ok items, bind_of_ok tables]
    rfl
  have filter : Parser.after .WHERE (inner.expr 0) behind = .ok (some e, []) := by
    rw [Parser.after, bind_of_ok (skipWord_self _ _)]
    exact (bind_of_ok read).trans rfl
  rw [select_eq, bind_of_ok head, bind_of_ok filter]
  rfl

theorem body_read (h : IsTable s.grammar source) (read : inner.expr 0 ts = .ok (e, [])) :
    body s inner (allWhereTokens source ++ ts) = .ok ((Query.allWhere source e).body, []) := by
  have plain : plainBody s inner (allWhereTokens source ++ ts) =
      .ok ((Query.allWhere source e).body, []) := by
    have first : wordOf? (allWhereTokens source ++ ts).head? = some .SELECT := rfl
    rw [plainBody, bind_of_ok peekWord_apply, first]
    exact (bind_of_ok (select_read h read)).trans rfl
  have intersections : combine [(.INTERSECT, .intersect)] (plainBody s inner) (allWhereTokens source ++ ts) =
      .ok ((Query.allWhere source e).body, []) := by
    rw [combine, bind_of_ok plain]
    rfl
  rw [body, combine, bind_of_ok intersections]
  rfl

theorem queryText_read (h : IsTable s.grammar source) (read : inner.expr 0 ts = .ok (e, [])) :
    queryText s inner (allWhereTokens source ++ ts) = .ok (.allWhere source e, []) := by
  have tail : queryEnd s inner (false, []) [] =
      .ok (fun body => ⟨false, [], body, [], none, none, .none, []⟩, []) := by
    unfold queryEnd bound settings
    cases s.grammar.hasLimitComma <;> cases s.grammar.hasSettings <;> rfl
  have noNames : queryHead s inner (allWhereTokens source ++ ts) = .ok ((false, []), allWhereTokens source ++ ts) := rfl
  rw [queryText_eq, bind_of_ok noNames, bind_of_ok (body_read h read), bind_of_ok tail]
  rfl

end Parser

/-- The text of a query is read as the query. -/
theorem parseStatement_allWhere {s : ParserSettings} {source : String} {e : Expr} {d : Nat} {ts : List Token}
    (h : IsTable s.grammar source) (limit : s.recursionLimit = d + 2)
    (scanned : Lexer.tokensOf s e.text.toList = .ok ts)
    (read : (Parser.innerIn s d).expr 0 ts = .ok (e, [])) :
    s.parseStatement (Query.allWhere source e).text = .ok (.query (.allWhere source e)) := by
  have query : (Parser.innerIn s (d + 1)).query (allWhereTokens source ++ ts) = .ok (.allWhere source e, []) := by
    rw [Parser.innerIn_query_succ]
    exact Parser.queryText_read h read
  have lone : Parser.LoneQuery s (d + 1) (.allWhere source e) [] (allWhereTokens source ++ ts) :=
    .here rfl query (Parser.statementsIn_nil _ _)
  refine parseStatement_of_tokens (allWhereTokens source ++ ts) [] ?_ ?_
  · rw [Lexer.scan_eq, text_allWhere, String.toList_append]
    exact Lexer.tokensOf_allWhere h.plain scanned
  · rw [Parser.statements, Parser.get_bind_apply]
    exact lone.read (by omega) (Nat.lt_succ_self _)

end DetectionPlan.Sql
