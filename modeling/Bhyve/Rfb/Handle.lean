import Mathlib.Data.List.Basic

/-!
A connection of the VNC server: rfb_handle of rfb.c with the messages that it reads, down to
stream_read of sockstream.c.
-/
namespace Rfb

/-- The connection and what the code finds elsewhere: the password that is configured, the challenge,
    the cipher, how many bytes a read delivers, the memory behind local variables, and the size of
    the image. The last two may differ with the number of bytes that are still to come. -/
structure Connection where
  password : List (BitVec 8)
  challenge : List (BitVec 8)
  des : List (BitVec 8) → List (BitVec 8) → List (BitVec 8)
  part : Nat → Nat
  stack : List (BitVec 8)
  stale : Nat → Nat → BitVec 8
  image : Nat → BitVec 16 × BitVec 16
  challenge_size : challenge.length = 16
  des_size : ∀ key block, (des key block).length = 8
  stack_size : stack.length = 80

structure Softc where
  width : BitVec 16
  height : BitVec 16
  encRawOk : Bool
  encZlibOk : Bool
  encResizeOk : Bool
deriving DecidableEq

inductive Output where
  | version (vbuf : String)
  | types (offered : List (BitVec 8))
  | challenge (bytes : List (BitVec 8))
  | result (sres : BitVec 32)
  | reason (length : Nat) (message : String)
  | serverInit (width height : BitVec 16)
  | screen
  | writer
  | resize (width height : BitVec 16)
  | key (down : BitVec 8) (code : BitVec 32)
  | ptr (button : BitVec 8) (x y : BitVec 16)
deriving DecidableEq

def versionLength : Nat := 12
def authLength : Nat := 16
def passwdLength : Nat := 8

def securityTypeNone : BitVec 8 := 1
def securityTypeVncAuth : BitVec 8 := 2

def vbuf : String := "RFB 003.008\n"
def message : String := "Auth Failed: Invalid Password."

def rfbEncodingRaw : BitVec 32 := 0
def rfbEncodingZlib : BitVec 32 := 6
def rfbEncodingResize : BitVec 32 := -223

def be16 (b : List (BitVec 8)) : BitVec 16 := b.getD 0 0 ++ b.getD 1 0

def be32 (b : List (BitVec 8)) : BitVec 32 := b.getD 0 0 ++ b.getD 1 0 ++ b.getD 2 0 ++ b.getD 3 0

variable (c : Connection)

def read (nbytes : Nat) (input : List (BitVec 8)) : List (BitVec 8) × List (BitVec 8) :=
  let n := min (c.part input.length + 1) nbytes
  (input.take n, input.drop n)

def streamReadLoop (c : Connection) : Nat → Nat → List (BitVec 8) → List (BitVec 8) × List (BitVec 8)
  | 0, _, input => ([], input)
  | turns + 1, nbytes, input =>
      if nbytes = 0 then ([], input)
      else
        let (got, input) := read c nbytes input
        if got = [] then ([], input)
        else
          let (more, input) := streamReadLoop c turns (nbytes - got.length) input
          (got ++ more, input)

def streamRead (nbytes : Nat) (input : List (BitVec 8)) : List (BitVec 8) × List (BitVec 8) :=
  streamReadLoop c nbytes nbytes input

def readInto (buf : List (BitVec 8)) (nbytes : Nat) (input : List (BitVec 8)) :
    List (BitVec 8) × List (BitVec 8) :=
  let (got, input) := streamRead c nbytes input
  (got ++ buf.drop got.length, input)

def unset (start n : Nat) (input : List (BitVec 8)) : List (BitVec 8) :=
  (List.range n).map fun i => c.stale input.length (start + i)

def header (n : Nat) (input : List (BitVec 8)) : List (BitVec 8) × List (BitVec 8) :=
  readInto c (unset c 1 n input) n input

variable (rc : Softc)

def rfbRecvSetPixfmtMsg (input : List (BitVec 8)) : List Output × Softc × List (BitVec 8) :=
  let (_, input) := header c 19 input
  ([], rc, input)

def setEncoding (encoding : BitVec 32) : Softc :=
  if encoding = rfbEncodingRaw then { rc with encRawOk := true }
  else if encoding = rfbEncodingZlib then { rc with encZlibOk := true }
  else if encoding = rfbEncodingResize then { rc with encResizeOk := true }
  else rc

def encodingsLoop (c : Connection) : Nat → List (BitVec 8) → Softc → List (BitVec 8) →
    Softc × List (BitVec 8)
  | 0, _, rc, input => (rc, input)
  | numencs + 1, encoding, rc, input =>
      let (encoding, input) := readInto c encoding 4 input
      encodingsLoop c numencs encoding (setEncoding rc (be32 encoding)) input

def rfbRecvSetEncodingsMsg (input : List (BitVec 8)) : List Output × Softc × List (BitVec 8) :=
  let encoding := unset c 4 4 input
  let (encMsg, input) := header c 3 input
  let (rc, input) := encodingsLoop c (be16 (encMsg.drop 1)).toNat encoding rc input
  ([], rc, input)

def rfbRecvUpdateMsg (discardonly : Bool) (input : List (BitVec 8)) :
    List Output × Softc × List (BitVec 8) :=
  let (updtMsg, input) := header c 9 input
  let (width, height) := c.image input.length
  let moved := decide (be16 (updtMsg.drop 5) ≠ width ∨ be16 (updtMsg.drop 7) ≠ height)
  let rc := if moved then { rc with width := width, height := height } else rc
  let resized := if moved && rc.encResizeOk then [.resize width height] else []
  (if discardonly then resized else resized ++ [.screen], rc, input)

def rfbRecvKeyMsg (input : List (BitVec 8)) : List Output × Softc × List (BitVec 8) :=
  let (keyMsg, input) := header c 7 input
  ([.key (keyMsg.getD 0 0) (be32 (keyMsg.drop 3))], rc, input)

def rfbRecvPtrMsg (input : List (BitVec 8)) : List Output × Softc × List (BitVec 8) :=
  let (ptrMsg, input) := header c 5 input
  ([.ptr (ptrMsg.getD 0 0) (be16 (ptrMsg.drop 1)) (be16 (ptrMsg.drop 3))], rc, input)

def cuttextLoop (c : Connection) : Nat → Nat → List (BitVec 8) → Option (List (BitVec 8))
  | 0, _, _ => none
  | turns + 1, length, input =>
      if length = 0 then some input
      else
        let (got, input) := streamRead c (if length > 32 then 32 else length) input
        cuttextLoop c turns (length - got.length) input

def rfbRecvCuttextMsg (turns : Nat) (input : List (BitVec 8)) : Option (List (BitVec 8)) :=
  let (ctMsg, input) := header c 7 input
  cuttextLoop c turns (be32 (ctMsg.drop 3)).toNat input

def rfbRecvMsg (type : BitVec 8) (input : List (BitVec 8)) :
    Option (List Output × Softc × List (BitVec 8)) :=
  if type = 0 then some (rfbRecvSetPixfmtMsg c rc input)
  else if type = 2 then some (rfbRecvSetEncodingsMsg c rc input)
  else if type = 3 then some (rfbRecvUpdateMsg c rc true input)
  else if type = 4 then some (rfbRecvKeyMsg c rc input)
  else if type = 5 then some (rfbRecvPtrMsg c rc input)
  else none

def requestLoop (c : Connection) : Nat → Softc → List (BitVec 8) → Option (List Output)
  | 0, _, _ => none
  | _ + 1, _, [] => some []
  | turns + 1, rc, type :: input =>
      if type = 6 then
        match rfbRecvCuttextMsg c turns input with
        | none => none
        | some input => requestLoop c turns rc input
      else
        match rfbRecvMsg c rc type input with
        | none => some []
        | some (outputs, rc, input) => (requestLoop c turns rc input).map (outputs ++ ·)

def mirror (b : BitVec 8) : BitVec 8 :=
  let b := (b &&& 0xf0) >>> 4 ||| (b &&& 0x0f) <<< 4
  let b := (b &&& 0xcc) >>> 2 ||| (b &&& 0x33) <<< 2
  (b &&& 0xaa) >>> 1 ||| (b &&& 0x55) <<< 1

def strncpy (text : List (BitVec 8)) (n : Nat) : List (BitVec 8) :=
  text.take n ++ List.replicate (n - text.length) 0

def keystr (c : Connection) : List (BitVec 8) := (strncpy c.password passwdLength).map mirror

def cryptExpected (c : Connection) : List (BitVec 8) :=
  c.des (keystr c) (c.challenge.take passwdLength) ++ c.des (keystr c) (c.challenge.drop passwdLength)

def vncAuth (buf input : List (BitVec 8)) :
    List Output × BitVec 32 × List (BitVec 8) × List (BitVec 8) :=
  let (buf, input) := readInto c buf authLength input
  ([.challenge c.challenge], if buf.take authLength = cryptExpected c then 0 else 1, buf, input)

def securityResult (buf input : List (BitVec 8)) :
    List Output × BitVec 32 × List (BitVec 8) × List (BitVec 8) :=
  if buf.getD 0 0 = securityTypeNone then ([], 0, buf, input)
  else if buf.getD 0 0 = securityTypeVncAuth then vncAuth c buf input
  else ([], 0, buf, input)

def rfbHandle (turns : Nat) (rc : Softc) (input : List (BitVec 8)) : Option (List Output) :=
  let (buf, input) := readInto c c.stack versionLength input
  let buf := (buf.set 0 1).set 1 securityTypeVncAuth
  let greeting := [.version vbuf, .types (buf.take 2)]
  let (buf, input) := readInto c buf 1 input
  let (asked, sres, buf, input) := securityResult c buf input
  if sres ≠ 0 then
    some (greeting ++ asked ++ [.result sres, .reason message.length message])
  else
    let (_, input) := readInto c buf 1 input
    let (width, height) := c.image input.length
    (requestLoop c turns rc input).map
      (greeting ++ asked ++ [.result sres, .serverInit width height, .screen, .writer] ++ ·)
end Rfb
