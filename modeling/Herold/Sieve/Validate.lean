import Herold.Sieve.Parse

/-!
# The semantic pass

`Validate` rejects scripts that name unknown extensions, commands or tests, or
that use one without requiring the extension behind it.
-/

namespace Herold.Sieve

open Herold.Go

inductive ValidationError where
  | unsupportedExtension (name : Bytes)
  | tooDeep
  | unknownCommand (name : Bytes)
  | commandRequires (name extension : Bytes)
  | unknownTest (name : Bytes)
  | testRequires (name extension : Bytes)
  | tagRequires (tag extension : Bytes)
  deriving DecidableEq

def supportedExtensions : List Bytes :=
  [ "fileinto", "reject", "envelope", "encoded-character", "imap4flags", "body", "vacation",
    "vacation-seconds", "variables", "relational", "subaddress", "regex", "copy", "include", "date",
    "index", "mailbox", "mailboxid", "editheader", "duplicate", "extlists", "foreverypart", "mime",
    "spamtest", "spamtestplus", "enotify", "comparator-i;ascii-numeric", "comparator-i;octet",
    "comparator-i;ascii-casemap" ].map ascii

/-- The commands with the extension each needs; the empty name is no extension. -/
def knownCommands : List (Bytes × Bytes) :=
  [ ("if", ""), ("elsif", ""), ("else", ""), ("require", ""), ("stop", ""), ("keep", ""),
    ("discard", ""), ("redirect", ""), ("fileinto", "fileinto"), ("reject", "reject"),
    ("ereject", "reject"), ("vacation", "vacation"), ("setflag", "imap4flags"),
    ("addflag", "imap4flags"), ("removeflag", "imap4flags"), ("set", "variables"),
    ("include", "include"), ("return", "include"), ("global", "include"),
    ("addheader", "editheader"), ("deleteheader", "editheader"), ("notify", "enotify"),
    ("foreverypart", "foreverypart"), ("break", "foreverypart"), ("replace", "mime"),
    ("enclose", "mime"), ("extracttext", "mime") ].map fun row => (ascii row.1, ascii row.2)

def knownTests : List (Bytes × Bytes) :=
  [ ("address", ""), ("allof", ""), ("anyof", ""), ("envelope", "envelope"), ("exists", ""),
    ("false", ""), ("true", ""), ("header", ""), ("not", ""), ("size", ""), ("body", "body"),
    ("hasflag", "imap4flags"), ("date", "date"), ("currentdate", "date"), ("string", "variables"),
    ("mailboxexists", "mailbox"), ("mailboxidexists", "mailboxid"), ("metadata", "mboxmetadata"),
    ("metadataexists", "mboxmetadata"), ("servermetadata", "servermetadata"),
    ("spamtest", "spamtest"), ("duplicate", "duplicate"), ("valid_notify_method", "enotify"),
    ("notify_method_capability", "enotify"),
    ("environment", "environment") ].map fun row => (ascii row.1, ascii row.2)

def refuseUnless (condition : Bool) (failure : ValidationError) : Except ValidationError Unit :=
  if condition then .ok () else .error failure

def tagExtension (tag : Bytes) : Option Bytes :=
  if toLower tag = ascii ":regex" then some (ascii "regex")
  else if toLower tag = ascii ":count" ∨ toLower tag = ascii ":value" then some (ascii "relational")
  else if tag = ascii ":user" ∨ tag = ascii ":detail" then some (ascii "subaddress")
  else if toLower tag = ascii ":list" then some (ascii "extlists")
  else none

def validateTag (requires : List Bytes) : Argument → Except ValidationError Unit
  | .tag name =>
    match tagExtension name with
    | some extension => refuseUnless (requires.contains extension) (.tagRequires name extension)
    | none => .ok ()
  | _ => .ok ()

def validateTags (requires : List Bytes) : List Argument → Except ValidationError Unit
  | [] => .ok ()
  | arg :: args => do
      validateTag requires arg
      validateTags requires args

mutual

def validateTest (requires : List Bytes) : Nat → Test → Except ValidationError Unit
  | depth, ⟨name, args, children⟩ => do
      refuseUnless (depth ≤ defaultMaxNestingDepth) .tooDeep
      match knownTests.lookup name with
      | none => .error (.unknownTest name)
      | some extension => do
          refuseUnless (extension = [] || requires.contains extension) (.testRequires name extension)
          validateTests requires (depth + 1) children
          validateTags requires args

def validateTests (requires : List Bytes) : Nat → List Test → Except ValidationError Unit
  | _, [] => .ok ()
  | depth, test :: tests => do
      validateTest requires depth test
      validateTests requires depth tests

end

mutual

def validateCommand (requires : List Bytes) : Nat → Command → Except ValidationError Unit
  | depth, ⟨name, _, test, block⟩ => do
      refuseUnless (depth ≤ defaultMaxNestingDepth) .tooDeep
      match knownCommands.lookup name with
      | none => .error (.unknownCommand name)
      | some extension => do
          refuseUnless (extension = [] || requires.contains extension)
            (.commandRequires name extension)
          let _ ← (match test with
            | none => .ok ()
            | some test => validateTest requires (depth + 1) test)
          validateCommands requires (depth + 1) block

def validateCommands (requires : List Bytes) : Nat → List Command → Except ValidationError Unit
  | _, [] => .ok ()
  | depth, command :: commands => do
      validateCommand requires depth command
      validateCommands requires depth commands

end

def validateRequires : List Bytes → Except ValidationError Unit
  | [] => .ok ()
  | name :: names => do
      refuseUnless (supportedExtensions.contains name) (.unsupportedExtension name)
      validateRequires names

def validate (script : Script) : Except ValidationError Unit := do
  validateRequires script.requires
  validateCommands script.requires 0 script.commands

end Herold.Sieve
