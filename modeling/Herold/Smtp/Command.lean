import Herold.Go.Decimal
import Herold.Smtp.Address

/-!
# Command lines of the SMTP session

How a line is cut into a verb and its arguments, and how the arguments of MAIL
and RCPT are read. The texts Go renders with `%q` are kept as data.
-/

namespace Herold.Smtp

open Herold.Go

def lineBreaks : Bytes := [13, 10]

def stripCRLF (text : Bytes) : Bytes := text.filter fun byte => byte ∉ lineBreaks

/-- `splitVerb`: the upper-cased first token and the trimmed remainder. -/
def splitVerb (line : Bytes) : Bytes × Bytes :=
  let line := trimSpace line
  match cutFirstAny [32, 9, 13, 10] line with
  | none => (toUpper (stripCRLF line), [])
  | some (verb, rest) => (toUpper (stripCRLF verb), stripCRLF (trimSpace rest))

inductive PathError where
  | lineBreak
  | missingClose
  | nestedBrackets
  | strayBracket
  deriving DecidableEq

def PathError.text : PathError → Bytes
  | lineBreak => ascii "CR/LF in path"
  | missingClose => ascii "missing '>'"
  | nestedBrackets => ascii "nested angle brackets in address"
  | strayBracket => ascii "stray angle bracket in bare address"

/-- `extractAngleAddr`: the address inside the brackets, or the first token when
there are none, and what follows it. -/
def extractAngleAddr (text : Bytes) : Except PathError (Bytes × Bytes) :=
  if containsAny text lineBreaks then .error .lineBreak
  else if hasPrefix text [60] then
    match cutFirstByte 62 text with
    | none => .error .missingClose
    | some (before, after) =>
      let inner := before.drop 1
      if containsAny inner [60, 62] then .error .nestedBrackets
      else .ok (inner, trimSpace after)
  else
    let (addr, rest) := match cutFirstAny [32, 9] text with
      | none => (text, [])
      | some (addr, rest) => (addr, trimSpace rest)
    if containsAny addr [60, 62] then .error .strayBracket else .ok (addr, rest)

inductive ParamError where
  | badSize (value : Bytes)
  | badBody (value : Bytes)
  | badRet (value : Bytes)
  | unknown (key : Bytes)
  deriving DecidableEq

structure MailFromParams where
  size : Int := 0
  body : Bytes := []
  smtputf8 : Bool := false
  requireTLS : Bool := false
  ret : Bytes := []
  envid : Bytes := []
  deriving DecidableEq

def splitParams (text : Bytes) : List Bytes := fields (trimSpace text)

/-- One token of `parseMailFromParams`. -/
def mailFromParam (params : MailFromParams) (token : Bytes) :
    Except ParamError MailFromParams :=
  let (key, value) := cut 61 token
  let upper := toUpper key
  if upper = ascii "SIZE" then
    match parseInt64 value with
    | some size => if size < 0 then .error (.badSize value) else .ok { params with size }
    | none => .error (.badSize value)
  else if upper = ascii "BODY" then
    let body := toUpper value
    if body = ascii "7BIT" ∨ body = ascii "8BITMIME" then .ok { params with body }
    else .error (.badBody value)
  else if upper = ascii "SMTPUTF8" then .ok { params with smtputf8 := true }
  else if upper = ascii "REQUIRETLS" then .ok { params with requireTLS := true }
  else if upper = ascii "RET" then
    let ret := toUpper value
    if ret = ascii "FULL" ∨ ret = ascii "HDRS" then .ok { params with ret }
    else .error (.badRet value)
  else if upper = ascii "ENVID" then .ok { params with envid := value }
  else if upper = ascii "AUTH" then .ok params
  else .error (.unknown key)

def parseMailFromParams (text : Bytes) : Except ParamError MailFromParams :=
  (splitParams text).foldlM mailFromParam {}

structure RcptParams where
  notify : Bytes := []
  orcpt : Bytes := []
  deriving DecidableEq

/-- One token of `parseRcptParams`. -/
def rcptParam (params : RcptParams) (token : Bytes) : Except ParamError RcptParams :=
  let (key, value) := cut 61 token
  let upper := toUpper key
  if upper = ascii "NOTIFY" then .ok { params with notify := toUpper value }
  else if upper = ascii "ORCPT" then .ok { params with orcpt := value }
  else .error (.unknown key)

def parseRcptParams (text : Bytes) : Except ParamError RcptParams :=
  (splitParams text).foldlM rcptParam {}

inductive ArgumentError where
  | syntaxError
  | path (error : PathError)
  | parameter (error : ParamError)
  deriving DecidableEq

/-- The arguments of MAIL and RCPT: a keyword in any case, a path and
parameters. -/
def parseArguments {Params : Type*} (keyword : Bytes)
    (parse : Bytes → Except ParamError Params) (rest : Bytes) :
    Except ArgumentError (Bytes × Params) :=
  let tail := trimSpace rest
  if hasPrefix (toUpper tail) keyword then
    match extractAngleAddr (trimSpace (tail.drop keyword.length)) with
    | .error error => .error (.path error)
    | .ok (addr, paramsPart) =>
      match parse paramsPart with
      | .error error => .error (.parameter error)
      | .ok params => .ok (addr, params)
  else .error .syntaxError

end Herold.Smtp
