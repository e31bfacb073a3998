import Homelab.CertAuthority

/-! What the Unraid enumerator reads out of the files and the outputs of its commands. -/
namespace Homelab
open Js

/-! ### Lines and fields -/

/-- `text.split('\n')`, each line trimmed -/
def trimmedLines (text : JsString) : List JsString := (text.splitOn 0x0A).map trim

/-- `text.split(',').map((s) => s.trim())` -/
def trimmedFields (text : JsString) : List JsString := (text.splitOn 0x2C).map trim

/-- `/\r|\n|\u2028|\u2029/`, which `.` does not match -/
def isLineEnd (c : CodeUnit) : Bool := c = 0x0A || c = 0x0D || c = 0x2028 || c = 0x2029

/-- `\w` -/
def isWordUnit (c : CodeUnit) : Bool :=
  isDigitUnit c || (0x41 ≤ c.toNat && c.toNat ≤ 0x5A) || (0x61 ≤ c.toNat && c.toNat ≤ 0x7A) || c = 0x5F

/-- The longest start of the text in a class, and the rest -/
def spanUnits (p : CodeUnit → Bool) (s : JsString) : JsString × JsString := (s.takeWhile p, s.dropWhile p)

/-- A record of texts, the property that was set last first. -/
abbrev Settings := List (JsString × JsString)

/-- `kv[key]` -/
def Settings.get (kv : Settings) (key : JsString) : Option JsString := kv.lookup key

/-- `kv[key] ?? ''` -/
def Settings.text (kv : Settings) (key : JsString) : JsString := (kv.get key).getD []

/-- `KEY=VALUE`, both trimmed -/
def keyValue (line : JsString) : Option (JsString × JsString) :=
  let (key, rest) := spanUnits (· ≠ 0x3D) line
  if rest = [] then none else some (trim key, trim (rest.drop 1))

/-! ### INI files -/

/-- `/^\[([^\]]+)\]/` -/
def sectionMatch : JsString → Option JsString
  | 0x5B :: rest =>
    let (name, after) := spanUnits (· ≠ 0x5D) rest
    if name = [] ∨ after = [] then none else some (trim name)
  | _ => none

abbrev Sections := List (JsString × Settings)

/-- `sections.set(name, record)`: a section that is there already keeps its place. -/
def Sections.set (sections : Sections) (name : JsString) (record : Settings) : Sections :=
  if sections.any fun s => s.1 = name then
    sections.map fun s => if s.1 = name then (name, record) else s
  else sections ++ [(name, record)]

structure IniState where
  sections : Sections
  currentSection : JsString
  currentRecord : Settings

/-- The sections with the one that is being read, if it has a name -/
def IniState.close (st : IniState) : Sections :=
  if st.currentSection = [] then st.sections else st.sections.set st.currentSection st.currentRecord

def iniLine (st : IniState) (line : JsString) : IniState :=
  if line = [] ∨ line.head? = some 0x23 ∨ line.head? = some 0x3B then st
  else
    match sectionMatch line with
    | some name => ⟨st.close, name, []⟩
    | none =>
      match keyValue line with
      | some setting => { st with currentRecord := setting :: st.currentRecord }
      | none => st

def parseIni (text : JsString) : Sections :=
  ((trimmedLines text).foldl iniLine ⟨[], [], []⟩).close

/-! ### Flat files -/

/-- `value.replace(/^"(.*)"$/, '$1')` -/
def unquote (value : JsString) : JsString :=
  let inner := (value.drop 1).dropLast
  if 2 ≤ value.length ∧ value.head? = some 0x22 ∧ value.getLast? = some 0x22 ∧ inner.all (!isLineEnd ·) then
    inner
  else value

def flatLine (line : JsString) : Option (JsString × JsString) :=
  if line = [] ∨ line.head? = some 0x23 then none
  else (keyValue line).map fun setting => (setting.1, unquote setting.2)

def parseFlatKv (text : JsString) : Settings := ((trimmedLines text).filterMap flatLine).reverse

def parseMdcmd (stdout : JsString) : Settings := parseFlatKv stdout

/-! ### The array and its disks -/

structure ParsedDisk where
  slot : JsString
  device : JsString
  size : JsString
  temp : JsString
  status : JsString
  smartHealth : JsString
  spunDown : Bool

structure ParsedArray where
  mdState : JsString
  mdInvalidSlots : JsNumber
  mdNumDisabled : JsNumber
  mdVersion : JsString
  mdResyncAction : JsString
  mdResyncPos : JsString

/-- `/^diskName\.(\d+)$/` -/
def diskIndex (key : JsString) : Option JsString :=
  let idx := key.drop 9
  if (js "diskName.").isPrefixOf key ∧ idx ≠ [] ∧ idx.all isDigitUnit then some idx else none

/-- The indices in use, in the order of their texts -/
def diskIndices (kv : Settings) : List JsString :=
  (kv.filterMap fun setting => diskIndex setting.1).dedup.mergeSort fun a b => decide (a ≤ b)

def mdcmdDisk (kv : Settings) (idx : JsString) : Option ParsedDisk :=
  let field (name : JsString) := kv.text (name ++ js "." ++ idx)
  let slot := field (js "diskName")
  let status := field (js "rdevStatus")
  if slot = [] then none
  else some
    { slot
      device := field (js "rdevName")
      size := field (js "rdevSize")
      temp := field (js "rdevTemp")
      status
      smartHealth := (kv.get (js "rdevSmartStatus." ++ idx)).getD (js "UNKNOWN")
      spunDown := status = js "DISK_NP" || status = js "DISK_NP_DSBL" }

def diskEntriesFromMdcmd (kv : Settings) : List ParsedDisk := (diskIndices kv).filterMap (mdcmdDisk kv)

def iniDisk (entry : JsString × Settings) : Option ParsedDisk :=
  let attrs := entry.2
  if attrs.text (js "device") = [] then none
  else some
    { slot := entry.1
      device := attrs.text (js "device")
      size := attrs.text (js "size")
      temp := attrs.text (js "temp")
      status := attrs.text (js "status")
      smartHealth := (attrs.get (js "smartStatus")).getD (js "UNKNOWN")
      spunDown := ((attrs.get (js "spinState")).or (attrs.get (js "spunDown"))).getD [] = js "1" }

def diskEntriesFromDisksIni (sections : Sections) : List ParsedDisk := sections.filterMap iniDisk

/-- `parseInt(text, 10)` -/
def parsedNumber (text : JsString) : JsNumber := ((parseInt text).map fun n => .ofScaledInt n 0).getD .nan

def arrayStateFromMdcmd (kv : Settings) : ParsedArray where
  mdState := kv.text (js "mdState")
  mdInvalidSlots := parsedNumber ((kv.get (js "mdInvalidSlots")).getD (js "0"))
  mdNumDisabled := parsedNumber ((kv.get (js "mdNumDisabled")).getD (js "0"))
  mdVersion := kv.text (js "mdVersion")
  mdResyncAction := kv.text (js "mdResyncAction")
  mdResyncPos := (kv.get (js "mdResyncPos")).getD (js "0")

/-! ### Shares -/

structure ParsedShare where
  name : JsString
  allocator : JsString
  includedDisks : List JsString
  excludedDisks : List JsString
  cacheUsage : JsString

/-- The share of a record whose properties may have two names each, the first of which goes before the
second -/
def shareOf (name : JsString) (attrs : Settings) (first second : JsString → JsString) : ParsedShare :=
  let either (field : JsString) := ((attrs.get (first field)).or (attrs.get (second field))).getD []
  { name
    allocator := either (js "Allocator")
    includedDisks := (trimmedFields (either (js "Include"))).filter (· ≠ [])
    excludedDisks := (trimmedFields (either (js "Exclude"))).filter (· ≠ [])
    cacheUsage := either (js "Cache") }

/-- `include` and the like -/
def shortName (field : JsString) : JsString :=
  field.map fun c => if 0x41 ≤ c.toNat && c.toNat ≤ 0x5A then c+0x20 else c

/-- `shareInclude` and the like -/
def longName (field : JsString) : JsString := js "share" ++ field

def sharesFromIni (sections : Sections) : List ParsedShare :=
  sections.map fun s => shareOf s.1 s.2 shortName longName

def shareFromCfg (name : JsString) (kv : Settings) : ParsedShare := shareOf name kv longName shortName

/-! ### GPUs -/

structure ParsedGpu where
  index : JsString
  name : JsString
  memoryTotal : JsString
  driverVersion : JsString
  utilizationGpu : JsString
  utilizationMemory : JsString

def gpuLine (line : JsString) : Option ParsedGpu :=
  if line = [] then none
  else
    match trimmedFields line with
    | index :: name :: memoryTotal :: driverVersion :: utilizationGpu :: utilizationMemory :: _ =>
      some ⟨index, name, memoryTotal, driverVersion, utilizationGpu, utilizationMemory⟩
    | _ => none

def parseNvidiaSmi (stdout : JsString) : List ParsedGpu := (trimmedLines stdout).filterMap gpuLine

/-! ### Jobs -/

structure ParsedJob where
  source : JsString
  schedule : JsString
  command : JsString
  name : JsString

/-- `s.split('/').pop()` -/
def lastSegment (s : JsString) : JsString := (s.splitOn 0x2F).getLastD []

/-- What follows `word`, if that starts the text -/
def dropWord (word s : JsString) : Option JsString :=
  if word.isPrefixOf s then some (s.drop word.length) else none

/-- What follows `\s+` at the start of the text -/
def dropSpaces (s : JsString) : Option JsString :=
  if (s.head?.map isWhiteSpace).getD false then some (s.dropWhile isWhiteSpace) else none

/-- What follows `\S+` at the start of the text -/
def dropToken (s : JsString) : Option JsString :=
  if (s.head?.map (!isWhiteSpace ·)).getD false then some (s.dropWhile (!isWhiteSpace ·)) else none

/-- What follows `"?` -/
def dropQuote (s : JsString) : JsString := if s.head? = some 0x22 then s.drop 1 else s

/-- `.replace(/^(\/usr\/local\/sbin\/mover|mover)\b/, 'mover')` -/
def stripMover (s : JsString) : JsString :=
  match dropWord (js "/usr/local/sbin/mover") s with
  | some rest => if (rest.head?.map isWordUnit).getD false then s else js "mover" ++ rest
  | none => s

/-- `.replace(/^\/usr\/local\/sbin\/mdcmd\s+\S+/, 'mdcmd-parity-check')` -/
def stripMdcmd (s : JsString) : JsString :=
  match ((dropWord (js "/usr/local/sbin/mdcmd") s).bind dropSpaces).bind dropToken with
  | some rest => js "mdcmd-parity-check" ++ rest
  | none => s

/-- `.replace(/^bash\s+-c\s+"?/, '')` -/
def stripBashC (s : JsString) : JsString :=
  match (((dropWord (js "bash") s).bind dropSpaces).bind (dropWord (js "-c"))).bind dropSpaces with
  | some rest => dropQuote rest
  | none => s

/-- `.replace(/^\/bin\/bash\s+"?/, '')` -/
def stripBinBash (s : JsString) : JsString :=
  match (dropWord (js "/bin/bash") s).bind dropSpaces with
  | some rest => dropQuote rest
  | none => s

/-- `.replace(/^su\s+\S+\s+/, '')` -/
def stripSu (s : JsString) : JsString :=
  (((dropWord (js "su") s).bind dropSpaces).bind dropToken).bind dropSpaces |>.getD s

/-- `srcBase.replace(/\.cron$/, '')` -/
def dropSuffix (suffix s : JsString) : JsString :=
  if suffix.isSuffixOf s then s.take (s.length-suffix.length) else s

def deriveJobName (command source : JsString) : JsString :=
  let stripped := stripSu (stripBinBash (stripBashC (stripMdcmd (stripMover command))))
  let base := lastSegment ((trim stripped).takeWhile (!isWhiteSpace ·))
  if base ≠ [] then base else dropSuffix (js ".cron") (lastSegment source)

/-- `(.+)$`, after the white space before it: a command on one line -/
def commandOf (rest : JsString) : Option JsString :=
  (dropSpaces rest).bind fun command =>
    if command ≠ [] ∧ command.all (!isLineEnd ·) then some (trim command) else none

/-- `/^(@\w+)\s+(.+)$/` -/
def atMatch : JsString → Option (JsString × JsString)
  | 0x40 :: rest =>
    let (word, after) := spanUnits isWordUnit rest
    if word = [] then none else (commandOf after).map fun command => (0x40 :: word, command)
  | _ => none

/-- What follows `count` tokens with white space between them -/
def dropTokens : ℕ → JsString → Option JsString
  | 0, s => some s
  | 1, s => dropToken s
  | count+2, s => ((dropToken s).bind dropSpaces).bind (dropTokens (count+1))

/-- `/^(\S+\s+\S+\s+\S+\s+\S+\s+\S+)\s+(.+)$/` -/
def cronMatch (line : JsString) : Option (JsString × JsString) :=
  (dropTokens 5 line).bind fun rest =>
    (commandOf rest).map fun command => (line.take (line.length-rest.length), command)

/-- `/^\w+=/` -/
def isAssignment (line : JsString) : Bool :=
  let (word, rest) := spanUnits isWordUnit line
  word ≠ [] && rest.head? = some 0x3D

def cronLine (source line : JsString) : Option ParsedJob :=
  if line = [] ∨ line.head? = some 0x23 ∨ isAssignment line then none
  else ((atMatch line).or (cronMatch line)).map fun job =>
    ⟨source, job.1, job.2, deriveJobName job.2 source⟩

def parseCrontab (text source : JsString) : List ParsedJob := (trimmedLines text).filterMap (cronLine source)

end Homelab
