import CashWallet.Json.Record

/-!
# `CashWallet/Wallet/Reply.lean` — how calls are answered

Every call is answered with a record of three members: a number that is zero for success, a
description of what went wrong, and the content. The parameters of a call are up to four texts.

An answer of success has no description and one of failure has no content, but nothing forbids other
answers to whoever reads them: each member has its default, and a record without any is an answer of
success with nothing in it. Whether a call succeeded is read off the number alone.

Answers are written in two layouts, over several lines or in one. Both are read back as the answer
that was written.
-/

set_option autoImplicit false

namespace CashWallet

structure Reply where
  errorId : Int32
  errorDescription : String
  content : String
  deriving Repr, DecidableEq

/-- The kinds of failure that an answer tells apart. -/
inductive ReplyCode
  | noMethod
  | notInitialized
  | badTransaction
  | signFailed
  | initFailed
  deriving Repr, DecidableEq

/-- The number of a failure. A method that does not exist counts as not initialised. -/
def ReplyCode.id : ReplyCode → Int32
  | noMethod => 1
  | notInitialized => 2
  | badTransaction => 3
  | signFailed => 4
  | initFailed => 6

open JsonValue

namespace Reply

def success (content : String) : Reply :=
  ⟨0, "", content⟩

def failure (code : ReplyCode) (description : String) : Reply :=
  ⟨code.id, description, ""⟩

def isSuccess (r : Reply) : Bool :=
  r.errorId == 0

def toJson (r : Reply) : JsonValue :=
  .object [("errorId", .integer r.errorId.toInt), ("errorDescription", .string r.errorDescription),
    ("content", .string r.content)]

def ofJson? (v : JsonValue) : Option Reply := do
  match ← v.fields? ["errorId", "errorDescription", "content"] with
  | [errorId, errorDescription, content] =>
    return ⟨← orElse 0 asInt32 errorId, ← orElse "" asString errorDescription,
      ← orElse "" asString content⟩
  | _ => none

def pretty (r : Reply) : String :=
  r.toJson.pretty

def compact (r : Reply) : String :=
  r.toJson.compact

def parse? (text : String) : Option Reply :=
  (JsonValue.parse text).bind ofJson?

end Reply

/-- The parameters of a call. Those that are not given are empty. -/
structure CallParams where
  param1 : String
  param2 : String
  param3 : String
  param4 : String
  deriving Repr, DecidableEq

namespace CallParams

def none : CallParams :=
  ⟨"", "", "", ""⟩

def ofJson? (v : JsonValue) : Option CallParams := do
  match ← v.fields? ["param1", "param2", "param3", "param4"] with
  | [param1, param2, param3, param4] =>
    return ⟨← orElse "" asString param1, ← orElse "" asString param2, ← orElse "" asString param3,
      ← orElse "" asString param4⟩
  | _ => Option.none

end CallParams

end CashWallet
