/-!
# Positions in a text

A `Position` says where a character stands: its offset in bytes of the UTF-8 form, for cutting the
text, and its line and column, for telling a reader. Lines and columns start at one; a column counts
characters, and only a line feed ends a line. A `Span` is the stretch of text that a token covers,
together with the line and column at which it starts.
-/

namespace Straightline

/-- The number of bytes that characters take in UTF-8. -/
def byteSize : List Char → Nat
  | [] => 0
  | c :: cs => c.utf8Size + byteSize cs

@[simp]
theorem byteSize_nil : byteSize [] = 0 := rfl

@[simp]
theorem byteSize_cons (c : Char) (cs : List Char) :
    byteSize (c :: cs) = c.utf8Size + byteSize cs := rfl

@[simp]
theorem byteSize_append (cs ds : List Char) : byteSize (cs ++ ds) = byteSize cs + byteSize ds := by
  induction cs with
  | nil => simp
  | cons c cs ih => simp [ih, Nat.add_assoc]

/-- A string has as many bytes as its characters. -/
@[simp]
theorem byteSize_toList (s : String) : byteSize s.toList = s.utf8ByteSize := by
  suffices h : ∀ cs, byteSize cs = (String.ofList cs).utf8ByteSize by
    rw [h, String.ofList_toList]
  intro cs
  induction cs with
  | nil => rfl
  | cons c cs ih =>
    rw [byteSize_cons, ih, String.ofList_cons, String.utf8ByteSize_append,
      String.utf8ByteSize_singleton]

/-- A place in a text, just before one of its characters or at its end. -/
structure Position where
  /-- Bytes before this place. -/
  offset : Nat
  /-- Number of the line, from one. -/
  line : Nat
  /-- Number of the column, from one, counted in characters. -/
  column : Nat
deriving DecidableEq, Repr

namespace Position

/-- The place before the first character. -/
def start : Position := ⟨0, 1, 1⟩

/-- The place after the character `c`, if `p` is the place before it. -/
def step (p : Position) (c : Char) : Position :=
  if c = '\n' then ⟨p.offset + c.utf8Size, p.line + 1, 1⟩
  else ⟨p.offset + c.utf8Size, p.line, p.column + 1⟩

/-- The place after all of `cs`, if `p` is the place before them. -/
def advance (p : Position) (cs : List Char) : Position :=
  cs.foldl step p

@[simp]
theorem advance_nil (p : Position) : p.advance [] = p := rfl

@[simp]
theorem advance_cons (p : Position) (c : Char) (cs : List Char) :
    p.advance (c :: cs) = (p.step c).advance cs := rfl

@[simp]
theorem advance_append (p : Position) (cs ds : List Char) :
    p.advance (cs ++ ds) = (p.advance cs).advance ds := by
  simp [advance]

@[simp]
theorem offset_step (p : Position) (c : Char) : (p.step c).offset = p.offset + c.utf8Size := by
  unfold step
  split <;> rfl

@[simp]
theorem offset_advance (p : Position) (cs : List Char) :
    (p.advance cs).offset = p.offset + byteSize cs := by
  induction cs generalizing p with
  | nil => simp
  | cons c cs ih => simp [ih, Nat.add_assoc]

end Position

/-- A stretch of text, and where it starts. -/
structure Span where
  /-- Offset of its first byte. -/
  start : Nat
  /-- Offset just past its last byte. -/
  stop : Nat
  /-- Line of its first character. -/
  line : Nat
  /-- Column of its first character. -/
  column : Nat
deriving DecidableEq, Repr

namespace Span

/-- The stretch of the characters `cs`, the first of which stands at `p`. -/
def covering (p : Position) (cs : List Char) : Span :=
  ⟨p.offset, p.offset + byteSize cs, p.line, p.column⟩

/-- The empty stretch at `p`. -/
def point (p : Position) : Span :=
  ⟨p.offset, p.offset, p.line, p.column⟩

@[simp]
theorem covering_nil (p : Position) : covering p [] = point p := rfl

end Span

/-- The text of line number `line` of `source`, without carriage returns at its end. A number past
the last line gives the empty text. -/
def lineText (source : List Char) (line : Nat) : List Char :=
  let full := (source.splitOn '\n').getD (line - 1) []
  (full.reverse.dropWhile (· == '\r')).reverse

end Straightline
