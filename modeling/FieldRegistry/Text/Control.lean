/-!
Terminal control in texts. A channel that is no terminal gets a text without control characters and
without the sequences that an escape character opens; white space stays. Main statements: what is
left holds no control, and a text without control is left as it is.
-/

namespace FieldRegistry.Text

namespace Control

/-- A sequence that tells a terminal what to do, by how far it has been read. -/
inductive Sequence where
  /-- After the escape character. -/
  | escape
  /-- After an escape character and a sign or more. -/
  | escapeSigns
  /-- A control sequence, which a letter ends. -/
  | control
  /-- The start of a device control string. -/
  | deviceStart
  | deviceParameters
  | deviceSigns
  /-- The body of a string, up to its terminator. -/
  | body
  /-- An operating system command, up to a bell. -/
  | command
deriving DecidableEq

def escapeCharacter : Char := Char.ofNat 0x1B

def bell : Char := Char.ofNat 0x07

def delete : Char := Char.ofNat 0x7F

/-- Characters that break off any sequence. -/
def breaksOff (c : Char) : Bool := c == Char.ofNat 0x18 || c == Char.ofNat 0x1A

/-- White space among the control characters. -/
def isLayout (c : Char) : Bool := c == '\t' || c == '\n' || c == Char.ofNat 0x0C || c == '\r'

def isSign (c : Char) : Bool := ' ' ≤ c && c ≤ '/'

def isParameter (c : Char) : Bool := '0' ≤ c && c ≤ '?'

def isLetter (c : Char) : Bool := '@' ≤ c && c ≤ '~'

/-- Whether the encoding of a character holds the byte that ends the body of a string. -/
def holdsTerminator (c : Char) : Bool := (String.utf8EncodeChar c).contains 0x9C

/-- Whether white space inside a sequence is shown. Strings take it in. -/
def Sequence.showsLayout : Sequence → Bool
  | escape | escapeSigns | control => true
  | deviceStart | deviceParameters | deviceSigns | body | command => false

/-- The sequence with one more character, or nothing when that character is its last. -/
def Sequence.next? : Sequence → Char → Option Sequence
  | escape, c =>
    if isSign c then some escapeSigns
    else if c == '[' then some control
    else if c == ']' then some command
    else if c == 'P' then some deviceStart
    else if c == 'X' || c == '^' || c == '_' then some body
    else if isParameter c || isLetter c then none
    else some escape
  | escapeSigns, c => if isParameter c || isLetter c then none else some escapeSigns
  | control, c => if isLetter c then none else some control
  | deviceStart, c =>
    if isSign c then some deviceSigns
    else if isParameter c then some deviceParameters
    else if isLetter c then some body
    else some deviceStart
  | deviceParameters, c =>
    if isSign c then some deviceSigns
    else if ('<' ≤ c && c ≤ '?') || isLetter c then some body
    else some deviceParameters
  | deviceSigns, c => if isParameter c || isLetter c then some body else some deviceSigns
  | body, c => if holdsTerminator c then none else some body
  | command, c => if c == bell then none else some command

/-- Where reading stands. -/
inductive Place where
  /-- In text that is shown. White space may have interrupted a sequence, which goes on at the next
  control character. -/
  | shown (interrupted : Option Sequence)
  | inside (sequence : Sequence)

/-- The place in a sequence, or in text when there is none. -/
def Place.resume : Option Sequence → Place
  | none => shown none
  | some sequence => inside sequence

/-- Whether a character is no control, or white space. -/
def stays (c : Char) : Bool := (' ' ≤ c && c != delete) || isLayout c

/-- The place after a character, and whether the character is shown. A character beyond ASCII ends a
sequence that was interrupted. -/
def Place.step (place : Place) (c : Char) : Place × Bool :=
  if c == escapeCharacter then (inside .escape, false)
  else if breaksOff c then (shown none, false)
  else match place with
    | shown interrupted =>
      if stays c then (shown (if c.toNat < 0x80 then interrupted else none), true)
      else (resume interrupted, false)
    | inside sequence =>
      if isLayout c && sequence.showsLayout then (shown (some sequence), true)
      else (resume (sequence.next? c), false)

/-- The characters that are shown, from a place on. -/
def Place.visible (place : Place) : List Char → List Char
  | [] => []
  | c :: cs =>
    let (after, isShown) := place.step c
    if isShown then c :: after.visible cs else after.visible cs

theorem stays_of_step {place : Place} {c : Char} (h : (place.step c).2 = true) :
    stays c = true := by
  unfold Place.step at h
  split at h
  · simp at h
  · split at h
    · simp at h
    · cases place with
      | shown interrupted =>
        by_cases hc : stays c = true
        · exact hc
        · simp [hc] at h
      | inside sequence =>
        by_cases hc : isLayout c = true
        · simp [stays, hc]
        · simp [hc] at h

/-- What is shown holds no control character but white space. -/
theorem stays_of_mem_visible {place : Place} {c : Char} {s : List Char}
    (h : c ∈ place.visible s) : stays c = true := by
  induction s generalizing place with
  | nil => simp [Place.visible] at h
  | cons d s ih =>
    rw [Place.visible] at h
    by_cases hd : (place.step d).2 = true
    · rcases List.mem_cons.1 (by simpa [hd] using h) with rfl | hs
      · exact stays_of_step hd
      · exact ih hs
    · exact ih (by simpa [hd] using h)

theorem step_shown_none {c : Char} (h : stays c = true) :
    (Place.shown none).step c = (.shown none, true) := by
  have he : (c == escapeCharacter) = false := by
    by_cases hc : c = escapeCharacter
    · subst hc; exact absurd h (by decide)
    · simpa using hc
  have hb : breaksOff c = false := by
    by_cases hc : breaksOff c = true
    · rcases (by simpa [breaksOff] using hc : c = Char.ofNat 0x18 ∨ c = Char.ofNat 0x1A) with
        rfl | rfl
      · exact absurd h (by decide)
      · exact absurd h (by decide)
    · simpa using hc
  simp [Place.step, he, hb, h]

/-- A text without control is shown as it is. -/
theorem visible_eq_self {s : List Char} (h : ∀ c ∈ s, stays c = true) :
    (Place.shown none).visible s = s := by
  induction s with
  | nil => rfl
  | cons c s ih =>
    have hc := step_shown_none (h c (by simp))
    simp [Place.visible, hc, ih fun d hd => h d (by simp [hd])]

end Control

/-- The text without terminal control. -/
def plain (s : String) : String :=
  String.ofList ((Control.Place.shown none).visible s.toList)

end FieldRegistry.Text
