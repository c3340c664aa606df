import Chip8.Random.Source

/-!
# The Mersenne twister

The generator MT19937: 624 words of thirty-two bits, turned over together by a linear recurrence and tempered one by
one on the way out. A seed is an integer whose absolute value, cut into words from the least significant one, is
mixed into the words. A random byte is the top nine bits of a word, drawn again until it is below 256. Main statement:
`size_twist`.
-/

namespace Chip8

/-- The words of the generator and the number of them already handed out. -/
structure Twister where
  words : Array UInt32
  used : Nat

namespace Twister

/-- Number of words. -/
def count : Nat := 624

/-- The word at a position. -/
def word (words : Array UInt32) (n : Nat) : UInt32 := words.getD n 0

/-! ## Seeding -/

/-- A word mixed with its own top bits. -/
def folded (w : UInt32) : UInt32 := w ^^^ (w >>> 30)

/-- `n` more words after the ones given, each from its predecessor. -/
def extend (words : Array UInt32) : Nat → Array UInt32
  | 0 => words
  | n + 1 =>
    let last := word words (words.size - 1)
    extend (words.push (1812433253 * folded last + UInt32.ofNat words.size)) n

/-- The words of a one-word seed. -/
def ofWord (seed : UInt32) : Array UInt32 := extend #[seed] (count - 1)

/-- The next place to mix, and the words with the last one carried to the front where the places start over. -/
def nextPlace (words : Array UInt32) (i : Nat) : Array UInt32 × Nat :=
  if i + 1 < count then (words, i + 1) else (words.setIfInBounds 0 (word words (count - 1)), 1)

/-- Mixes a key into the words: `n` more steps, at place `i` with key word `j`. -/
def mixKey (key : Array UInt32) (words : Array UInt32) (i j : Nat) : Nat → Array UInt32 × Nat
  | 0 => (words, i)
  | n + 1 =>
    let mixed := (word words i ^^^ (folded (word words (i - 1)) * 1664525)) + word key j + UInt32.ofNat j
    let (words, i) := nextPlace (words.setIfInBounds i mixed) i
    mixKey key words i (if j + 1 < key.size then j + 1 else 0) n

/-- Mixes the places into the words: `n` more steps, at place `i`. -/
def mixPlaces (words : Array UInt32) (i : Nat) : Nat → Array UInt32
  | 0 => words
  | n + 1 =>
    let mixed := (word words i ^^^ (folded (word words (i - 1)) * 1566083941)) - UInt32.ofNat i
    let (words, i) := nextPlace (words.setIfInBounds i mixed) i
    mixPlaces words i n

/-- The words of a key. -/
def ofKey (key : Array UInt32) : Array UInt32 :=
  let (words, i) := mixKey key (ofWord 19650218) 1 0 (max count key.size)
  (mixPlaces words i (count - 1)).setIfInBounds 0 0x80000000

/-- The digits of a number in base 2 ^ 32, least significant first; zero has none. -/
def keyDigits (n : Nat) : List UInt32 :=
  if n = 0 then [] else UInt32.ofNat (n % 0x100000000) :: keyDigits (n / 0x100000000)
termination_by n

/-- The key of a seed. Zero has one word. -/
def keyOf (seed : Int) : Array UInt32 :=
  match keyDigits seed.natAbs with
  | [] => #[0]
  | digits => digits.toArray

/-- The generator of a seed. -/
def ofSeed (seed : Int) : Twister := { words := ofKey (keyOf seed), used := count }

/-! ## Words -/

/-- The recurrence: the top bit of one word and the rest of the next, halved, with the feedback mask if odd. -/
def recurrence (upper lower far : UInt32) : UInt32 :=
  let y := (upper &&& 0x80000000) ||| (lower &&& 0x7fffffff)
  far ^^^ (y >>> 1) ^^^ (if y &&& 1 = 1 then 0x9908b0df else 0)

/-- Turns over `n` words, from place `i` on. -/
def twistFrom (words : Array UInt32) (i : Nat) : Nat → Array UInt32
  | 0 => words
  | n + 1 =>
    let new := recurrence (word words i) (word words ((i + 1) % count)) (word words ((i + 397) % count))
    twistFrom (words.setIfInBounds i new) (i + 1) n

/-- Turns over all words. -/
def twist (words : Array UInt32) : Array UInt32 := twistFrom words 0 count

theorem size_twistFrom (words : Array UInt32) (i n : Nat) : (twistFrom words i n).size = words.size := by
  induction n generalizing words i with
  | zero => rfl
  | succ n ih => rw [twistFrom, ih, Array.size_setIfInBounds]

theorem size_twist (words : Array UInt32) : (twist words).size = words.size := size_twistFrom words 0 count

/-- A word as it is handed out. -/
def temper (w : UInt32) : UInt32 :=
  let w := w ^^^ (w >>> 11)
  let w := w ^^^ ((w <<< 7) &&& 0x9d2c5680)
  let w := w ^^^ ((w <<< 15) &&& 0xefc60000)
  w ^^^ (w >>> 18)

/-- The next word. -/
def nextWord (t : Twister) : UInt32 × Twister :=
  if t.used < count then (temper (word t.words t.used), { t with used := t.used + 1 })
  else
    let words := twist t.words
    (temper (word words 0), { words, used := 1 })

/-! ## Bytes -/

/-- The next byte, after at most `tries` draws of nine bits. A draw is below 256 every other time, so a thousand
tries are as good as no bound at all. -/
def nextByte (t : Twister) : Nat → Nat × Twister
  | 0 => (0, t)
  | tries + 1 =>
    let (w, t) := t.nextWord
    let bits := (w >>> 23).toNat
    if bits < 256 then (bits, t) else nextByte t tries

end Twister

instance : RandomSource Twister where
  next t := let (byte, t) := t.nextByte 1000; .ok (byte, t)

end Chip8
