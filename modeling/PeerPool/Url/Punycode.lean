/-! The encoding of labels beyond ASCII in the letters and digits of ASCII, by RFC 3492. -/

namespace PeerPool.Punycode

def digit (value : Nat) : Char :=
  if value < 26 then Char.ofNat (97 + value) else Char.ofNat (22 + value)

def shrink (delta : Nat) (shift : Nat) : Nat × Nat :=
  if 455 < delta then shrink (delta / 35) (shift + 36) else (delta, shift)
termination_by delta

/-- The bias of the next number, from the one that was written last. -/
def adapt (first : Bool) (delta count : Nat) : Nat :=
  let delta := if first then delta / 700 else delta / 2
  let (delta, shift) := shrink (delta + delta / count) 0
  shift + 36 * delta / (delta + 38)

def threshold (place bias : Nat) : Nat := max 1 (min 26 (place - bias))

/-- A number in digits of varying weight, of which `place` tells the first. Each step
makes it smaller, so as many steps as its size are enough. -/
def writeNumber (fuel place bias value : Nat) : List Char :=
  match fuel with
  | 0 => []
  | fuel + 1 =>
    let least := threshold place bias
    if value < least then [digit value]
    else
      digit (least + (value - least) % (36 - least)) ::
      writeNumber fuel (place + 36) bias ((value - least) / (36 - least))

/-- What the encoder has come to after the characters below a code point. -/
structure Progress where
  delta : Nat
  bias : Nat
  done : Nat
  output : List Char

/-- Goes once over the label and inserts the characters of one code point. -/
def insertCode (code basic : Nat) (progress : Progress) (c : Char) : Progress :=
  if c.toNat < code then { progress with delta := progress.delta + 1 }
  else if c.toNat = code then
    let digits := writeNumber (progress.delta + 1) 36 progress.bias progress.delta
    { delta := 0, bias := adapt (progress.done = basic) progress.delta (progress.done + 1)
      done := progress.done + 1, output := progress.output ++ digits }
  else progress

/-- The code points beyond ASCII in rising order, each once. -/
def codes (label : List Char) : List Nat :=
  ((label.map Char.toNat).filter (0x80 ≤ ·)).mergeSort.eraseDups

def encodeFrom (label : List Char) (basic : Nat) : List Nat → Nat → Progress → List Char
  | [], _, progress => progress.output
  | code :: rest, next, progress =>
    let skipped := { progress with delta := progress.delta + (code - next) * (progress.done + 1) }
    let inserted := label.foldl (insertCode code basic) skipped
    encodeFrom label basic rest (code + 1) { inserted with delta := inserted.delta + 1 }

def encode (label : List Char) : List Char :=
  let ascii := label.filter (·.toNat < 0x80)
  let start := if ascii.isEmpty then [] else ascii ++ ['-']
  encodeFrom label ascii.length (codes label) 0x80 ⟨0, 72, ascii.length, start⟩

end PeerPool.Punycode
