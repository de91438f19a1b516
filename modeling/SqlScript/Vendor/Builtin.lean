import SqlScript.Vendor.Basic
import SqlScript.Vendor.Keyword

/-!
# The vendors that are always there

Four products: how each one's procedural blocks start and end, and what its scripts use besides.
-/

namespace SqlScript
open Keyword

namespace Oracle

/-- An anonymous block, or a stored program unit. -/
def isProceduralStart (text : List Char) : Bool :=
  (afterAny? ["DECLARE".toList, "BEGIN".toList] text).isSome ||
    match after? "CREATE".toList text with
    | none => false
    | some rest =>
      let rest := skip ["OR".toList, "REPLACE".toList] rest
      let rest := skip ["NONEDITIONABLE".toList] (skip ["EDITIONABLE".toList] rest)
      (afterAny?
        ["FUNCTION".toList, "PROCEDURE".toList, "PACKAGE".toList, "TRIGGER".toList] rest).isSome

end Oracle

/-- Blocks of PL/SQL, up to a line with a slash. -/
def oracle : Vendor where
  name := "oracle"
  isProceduralStart := Oracle.isProceduralStart
  blockEnd := .line "/"
  serverPort := some 1521

namespace PostgreSql

/-- A stored program unit, or an anonymous block. A body is a dollar-quoted literal, so the
delimiter ends the statement all the same. -/
def isProceduralStart (text : List Char) : Bool :=
  match after? "DO".toList text with
  | some rest => next? rest == some '$' || (after? "LANGUAGE".toList rest).isSome
  | none =>
    match after? "CREATE".toList text with
    | none => false
    | some rest =>
      let rest := skip ["CONSTRAINT".toList] (skip ["OR".toList, "REPLACE".toList] rest)
      (afterAny? ["FUNCTION".toList, "PROCEDURE".toList, "TRIGGER".toList] rest).isSome

end PostgreSql

def postgresql : Vendor where
  name := "postgresql"
  isProceduralStart := PostgreSql.isProceduralStart
  blockEnd := .activeDelimiter
  dollarQuoting := true
  serverPort := some 5432

namespace MySql

/-- A stored program, perhaps after a clause that names its definer. -/
def isProceduralStart (text : List Char) : Bool :=
  match after? "CREATE".toList text with
  | none => false
  | some rest =>
    let program (rest : List Char) :=
      (afterAny? ["PROCEDURE".toList, "FUNCTION".toList, "TRIGGER".toList] rest).isSome
    match after? "DEFINER".toList rest with
    | none => program rest
    | some rest =>
      match (after? "=".toList rest).bind afterWord? with
      | none => false
      | some rest => program rest

end MySql

/-- Scripts that set another delimiter around a stored program. -/
def mysql : Vendor where
  name := "mysql"
  isProceduralStart := MySql.isProceduralStart
  blockEnd := .activeDelimiter
  delimiterDirective := true
  backslashEscapes := true
  serverPort := some 3306

namespace SqlServer

/-- A stored program unit, new or altered. -/
def isProceduralStart (text : List Char) : Bool :=
  let unit (rest : List Char) :=
    (afterAny?
      ["PROCEDURE".toList, "PROC".toList, "TRIGGER".toList, "FUNCTION".toList] rest).isSome
  match after? "CREATE".toList text with
  | some rest => unit (skip ["OR".toList, "ALTER".toList] rest)
  | none =>
    match after? "ALTER".toList text with
    | none => false
    | some rest => unit rest

end SqlServer

/-- Batches up to a line with `GO`; a stored program is alone in its batch. -/
def sqlserver : Vendor where
  name := "sqlserver"
  isProceduralStart := SqlServer.isProceduralStart
  blockEnd := .line "GO"
  serverPort := some 1433

/-- The vendors that are always there, in the order they are listed. -/
def Vendor.builtins : List Vendor :=
  [oracle, postgresql, mysql, sqlserver]

end SqlScript
