import Mathlib.Data.List.DropRight
import MsxPulse.Library.Strtoul
import MsxPulse.Firmware.UsbSerial

/-!
# The command parser (usb_serial.c)
-/

namespace MsxPulse.Firmware.UsbSerial

open Library CString

/-- `str_tolower`: at most `n - 1` characters. -/
def strToLower (src : List U8) (n : Nat) : List U8 := ((text src).take (n - 1)).map toLower

def isLead (c : U8) : Bool := c == blank || c == tab

def isTrail (c : U8) : Bool := c == lf || c == cr || c == blank

/-- The two strip loops. -/
def strip (buf : List U8) : List U8 := (buf.dropWhile isLead).rdropWhile isTrail

/-- The commands that are one fixed text. -/
def keywords : List (List U8 × CmdType) :=
  [ (ascii "help", .help)
  , (ascii "status", .status)
  , (ascii "reset", .reset)
  , (ascii "rails", .rails)
  , (ascii "update", .update)
  , (ascii "emu off", .emuOff)
  , (ascii "pins", .pins)
  , (ascii "boot", .boot)
  , (ascii "dash", .dash) ]

def dollar : U8 := 36

def skipDollar (arg : List U8) : List U8 := if arg.head? = some dollar then arg.tail else arg

/-- What stands behind `dump`, less the spaces and the dollar sign. -/
def dumpArg (rest : List U8) : List U8 := skipDollar (rest.dropWhile (· == blank))

/-- What stands behind `alog`, less the spaces. -/
def alogArg (rest : List U8) : List U8 := rest.dropWhile (· == blank)

def parseDump (rest : List U8) : ParsedCmd :=
  ⟨.dumpHex, (strtoul 16 (dumpArg rest)).setWidth 16⟩

def parseAlog (rest : List U8) : ParsedCmd :=
  if alogArg rest = [] then ⟨.alogStatus, 0⟩
  else if alogArg rest = ascii "reset" then ⟨.alogReset, 0⟩
  else if alogArg rest = ascii "debug" then ⟨.alogDebug, 0⟩
  else ⟨.alogSlot, (strtoul 10 (alogArg rest)).setWidth 16⟩

/-- The comparisons of the stripped text, in the order of the source. -/
def parseText (p : List U8) : ParsedCmd :=
  match keywords.find? (·.1 == p) with
  | some (_, type) => ⟨type, 0⟩
  | none =>
    if p.take 4 = ascii "dump" then parseDump (p.drop 4)
    else if p.take 4 = ascii "alog" ∧ (p.drop 4 = [] ∨ (p.drop 4).head? = some blank) then
      parseAlog (p.drop 4)
    else ⟨.unknown, 0⟩

/-- `usb_serial_parse_cmd`; `none` is the null pointer. -/
def parseCmd : Option (List U8) → ParsedCmd
  | none => ⟨.unknown, 0⟩
  | some line => parseText (strip (strToLower line 64))

end MsxPulse.Firmware.UsbSerial
