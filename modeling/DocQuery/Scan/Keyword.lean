import DocQuery.Scan.Word

/-!
# Keywords

The keywords of the query language, some of several words, and the words that cannot be
used as names without quotes.

## Main Definitions

* `Keyword` — the keywords
* `Keyword.text`, `Keyword.word` — how they are written and matched
* `isReserved` — words that are no names
-/

namespace DocQuery.Scan

open DocQuery.Text

/-- A keyword of the query language. -/
inductive Keyword where
  | select | insertInto | update | delete
  | distinct | all | asKw | fromKw
  | join | innerJoin | leftJoin | leftOuterJoin | rightJoin | rightOuterJoin
  | fullJoin | fullOuterJoin | crossJoin | onKw
  | whereKw | groupBy | having | orderBy | asc | desc | limit | offset
  | union | intersect | except
  | setKw | values
  | and | or | not
  | like | notLike | isNull | isNotNull | inKw | notIn | between | notBetween
  | true | false | null
deriving Repr, DecidableEq

namespace Keyword

def text : Keyword → String
  | .select => "SELECT"
  | .insertInto => "INSERT INTO"
  | .update => "UPDATE"
  | .delete => "DELETE"
  | .distinct => "DISTINCT"
  | .all => "ALL"
  | .asKw => "AS"
  | .fromKw => "FROM"
  | .join => "JOIN"
  | .innerJoin => "INNER JOIN"
  | .leftJoin => "LEFT JOIN"
  | .leftOuterJoin => "LEFT OUTER JOIN"
  | .rightJoin => "RIGHT JOIN"
  | .rightOuterJoin => "RIGHT OUTER JOIN"
  | .fullJoin => "FULL JOIN"
  | .fullOuterJoin => "FULL OUTER JOIN"
  | .crossJoin => "CROSS JOIN"
  | .onKw => "ON"
  | .whereKw => "WHERE"
  | .groupBy => "GROUP BY"
  | .having => "HAVING"
  | .orderBy => "ORDER BY"
  | .asc => "ASC"
  | .desc => "DESC"
  | .limit => "LIMIT"
  | .offset => "OFFSET"
  | .union => "UNION"
  | .intersect => "INTERSECT"
  | .except => "EXCEPT"
  | .setKw => "SET"
  | .values => "VALUES"
  | .and => "AND"
  | .or => "OR"
  | .not => "NOT"
  | .like => "LIKE"
  | .notLike => "NOT LIKE"
  | .isNull => "IS NULL"
  | .isNotNull => "IS NOT NULL"
  | .inKw => "IN"
  | .notIn => "NOT IN"
  | .between => "BETWEEN"
  | .notBetween => "NOT BETWEEN"
  | .true => "TRUE"
  | .false => "FALSE"
  | .null => "NULL"

def list : List Keyword := [
  .select, .insertInto, .update, .delete, .distinct, .all, .asKw, .fromKw, .join, .innerJoin,
  .leftJoin, .leftOuterJoin, .rightJoin, .rightOuterJoin, .fullJoin, .fullOuterJoin,
  .crossJoin,
  .onKw, .whereKw, .groupBy, .having, .orderBy, .asc, .desc, .limit, .offset, .union,
  .intersect,
  .except, .setKw, .values, .and, .or, .not, .like, .notLike, .isNull, .isNotNull,
  .inKw, .notIn, .between, .notBetween, .true, .false, .null]

/-- The word by which a keyword is matched. -/
def word (k : Keyword) : Word :=
  Word.keyword k.text

end Keyword

/-- The words that are never names unless quoted. -/
def reservedWords : List String := [
  "SELECT", "FROM", "WHERE", "GROUP", "HAVING", "ORDER", "LIMIT", "OFFSET", "JOIN", "INNER",
  "LEFT", "RIGHT", "FULL", "OUTER", "CROSS", "ON", "UNION", "INTERSECT", "EXCEPT", "AND",
  "OR", "NOT", "AS", "SET", "VALUES", "ASC", "DESC", "LIKE", "IN", "IS", "BETWEEN", "NULL",
  "INTO"]

/-- Whether a word is reserved, in any ASCII case. -/
def isReserved (word : String) : Bool :=
  reservedWords.any (sameWord · word)

end DocQuery.Scan
