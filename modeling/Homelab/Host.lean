import Homelab.JsValue

/-! What the program shares with its host: bytes, the rejections of Node.js calls,
exit codes and output streams. -/
namespace Homelab
open Js

abbrev Bytes := List UInt8

/-- A rejection of a Node.js call. -/
structure ErrnoException where
  code : Option JsString
  message : JsString

def exitOk : ℕ := 0

def exitUsage : ℕ := 1

def exitNoConsent : ℕ := 2

def exitPartial : ℕ := 3

def exitInternal : ℕ := 10

/-- The exit code of a command and what it has written to its streams. -/
structure CommandResult where
  exitCode : ℕ
  stdout : JsString
  stderr : JsString
deriving DecidableEq

/-- `printJson` -/
def printJson (value : JsValue) : JsString := jsonText value ++ [0x0A]

/-- `printError` -/
def printError (message : JsString) : JsString := js "ERROR: " ++ message ++ [0x0A]

end Homelab
