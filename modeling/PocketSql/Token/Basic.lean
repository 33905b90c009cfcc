/-
  Tokens of the language.

  * `Keyword` lists the reserved words, `Keyword.ofWord?` finds one in any case;
  * `Sign` lists the operators and delimiters;
  * `TokenKind` is a reserved word, a sign, a number as it is written, a quoted text, a name, or a
    character without a meaning;
  * `renderTokens` writes tokens as text again.
-/
import PocketSql.Text.Basic

namespace PocketSql

/-- The reserved words. -/
inductive Keyword
  | select | from_ | where_ | insert | into | values | update | set | delete | create | table
  | drop | if_ | exists_ | and | or | not | is | null | order | by_ | asc | desc | limit | offset
  | primary | key | unique | default | references | true_ | false_
deriving DecidableEq, Repr

/-- The operators and delimiters. -/
inductive Sign
  | eq | ne | lt | gt | le | ge | minus | star
  | leftParen | rightParen | comma | semicolon | dot
deriving DecidableEq, Repr

/-- What a token is. -/
inductive TokenKind
  | keyword (k : Keyword)
  | sign (s : Sign)
  /-- A number as it is written. -/
  | number (digits : String)
  /-- A quoted text, without its quotes. -/
  | text (value : String)
  | name (word : String)
  /-- A character without a meaning. -/
  | unknown (c : Char)
deriving DecidableEq, Repr

/-- A token and the place of its first character. -/
structure Token where
  kind : TokenKind
  place : Position
deriving DecidableEq, Repr

namespace Keyword

/-- The reserved words in capital letters. -/
def spelling : Keyword → String
  | select => "SELECT"
  | from_ => "FROM"
  | where_ => "WHERE"
  | insert => "INSERT"
  | into => "INTO"
  | values => "VALUES"
  | update => "UPDATE"
  | set => "SET"
  | delete => "DELETE"
  | create => "CREATE"
  | table => "TABLE"
  | drop => "DROP"
  | if_ => "IF"
  | exists_ => "EXISTS"
  | and => "AND"
  | or => "OR"
  | not => "NOT"
  | is => "IS"
  | null => "NULL"
  | order => "ORDER"
  | by_ => "BY"
  | asc => "ASC"
  | desc => "DESC"
  | limit => "LIMIT"
  | offset => "OFFSET"
  | primary => "PRIMARY"
  | key => "KEY"
  | unique => "UNIQUE"
  | default => "DEFAULT"
  | references => "REFERENCES"
  | true_ => "TRUE"
  | false_ => "FALSE"

/-- All reserved words. -/
def all : List Keyword :=
  [select, from_, where_, insert, into, values, update, set, delete, create, table, drop, if_,
   exists_, and, or, not, is, null, order, by_, asc, desc, limit, offset, primary, key, unique,
   default, references, true_, false_]

/-- The reserved words with their spellings in small letters. -/
def dictionary : List (List Char × Keyword) :=
  all.map fun k => (lowerText k.spelling.toList, k)

/-- The reserved word that a word spells, in any case. -/
def ofWord? (word : List Char) : Option Keyword :=
  dictionary.lookup (foldKeyword word)

/-- The words a statement may begin with. -/
def startsStatement : Keyword → Bool
  | select | insert | update | delete | create | drop => true
  | _ => false

end Keyword

/-- A sign as it is written. -/
def Sign.spelling : Sign → String
  | eq => "="
  | ne => "!="
  | lt => "<"
  | gt => ">"
  | le => "<="
  | ge => ">="
  | minus => "-"
  | star => "*"
  | leftParen => "("
  | rightParen => ")"
  | comma => ","
  | semicolon => ";"
  | dot => "."

/-- A token as text; a quoted text gets plain quotes. -/
def TokenKind.display : TokenKind → String
  | keyword k => k.spelling
  | sign s => s.spelling
  | number digits => digits
  | text value => s!"'{value}'"
  | name word => word
  | unknown c => String.singleton c

/-! ## Tokens as text -/

/-- No space stands after an opening parenthesis. -/
def TokenKind.joinsNext (k : TokenKind) : Bool :=
  k == .sign .leftParen

/-- No space stands before a closing parenthesis or a comma. -/
def TokenKind.joinsPrevious (k : TokenKind) : Bool :=
  k == .sign .rightParen || k == .sign .comma

/-- Tokens as text, `previous` standing before them. -/
def renderAfter (previous : TokenKind) : List TokenKind → List Char
  | [] => []
  | k :: kinds =>
    (if previous.joinsNext || k.joinsPrevious then [] else [' ']) ++ k.display.toList ++
      renderAfter k kinds

/-- Tokens as text, with spaces between them. -/
def renderTokens : List TokenKind → List Char
  | [] => []
  | k :: kinds => k.display.toList ++ renderAfter k kinds

end PocketSql
