import Mathlib.Data.Int.Notation
import Mathlib.Data.List.Perm.Basic
import Mathlib.Tactic.SplitIfs

/-! # Cards and the deck

`card.h`, `card.cpp`, `deck.h` and `deck.cpp`. The enumeration `Card::Colours` lists the five
colours, then the count `numColours`, then `EMPTY`, the colour of the placeholder a drawn-out deck
hands out; the number of a colour is what `static_cast<int>` gives. A card is *real* if a deck is
built with it: number `1` to `5`, colour below `numColours`.

The generator of `Deck::shuffle` is outside the program: a `Shuffle` is any order of the cards that
`Deck::Deck` builds. The deck is read through a cursor; `undrawn` is what lies behind it. -/

namespace HanabiBot.HanabiGame.Cards

/-- `Card::Colours`. -/
inductive Colours where
  | red | blue | green | yellow | white | numColours | empty
deriving DecidableEq, Repr

/-- `static_cast<int>(colour)`. -/
def Colours.code : Colours → ℕ
  | .red => 0 | .blue => 1 | .green => 2 | .yellow => 3 | .white => 4 | .numColours => 5 | .empty => 6

/-- `static_cast<Card::Colours>(i)`, for the values of the enumeration. -/
def Colours.ofCode : ℕ → Colours
  | 0 => .red | 1 => .blue | 2 => .green | 3 => .yellow | 4 => .white | 5 => .numColours | _ => .empty

/-- `Card::Colours::numColours` as a number. -/
def colourCount : ℕ := Colours.numColours.code

theorem Colours.ofCode_code (c : Colours) : Colours.ofCode c.code = c := by cases c <;> rfl

/-- A card, with what its holder has been told about it. -/
structure Card where
  number : ℤ
  colour : Colours
  colourRevealed : Bool := false
  numberRevealed : Bool := false
deriving DecidableEq, Repr

namespace Card

/-- `Card::getColourString`; on the count `numColours` the source fails an assertion first. -/
def getColourString : Colours → String
  | .red => "Red   "
  | .blue => "Blue  "
  | .green => "Green "
  | .yellow => "Yellow"
  | .white => "White "
  | .empty => "      "
  | .numColours => "???"

/-- `Card::fullRepr`: what the other players see. -/
def fullRepr (c : Card) : String :=
  let colourStr := getColourString c.colour
  let numberStr := toString c.number
  if c.colourRevealed && c.numberRevealed then "Card([" ++ colourStr ++ ", " ++ numberStr ++ "])"
  else if c.colourRevealed then "Card([" ++ colourStr ++ "], ?" ++ numberStr ++ "?)"
  else if c.numberRevealed then "Card(?" ++ colourStr ++ "?, [" ++ numberStr ++ "])"
  else "Card(?" ++ colourStr ++ ", " ++ numberStr ++ "?)"

/-- `Card::hiddenRepr`: what the holder sees. -/
def hiddenRepr (c : Card) : String :=
  let colourStr := getColourString c.colour
  let numberStr := toString c.number
  if c.colourRevealed && c.numberRevealed then "Card([" ++ colourStr ++ ", " ++ numberStr ++ "])"
  else if c.colourRevealed then "Card([" ++ colourStr ++ "], ??)"
  else if c.numberRevealed then "Card(??, [" ++ numberStr ++ "])"
  else "Card(??, ??)"

/-- A card some deck is built with. -/
def Real (c : Card) : Prop := 1 ≤ c.number ∧ c.number ≤ 5 ∧ c.colour.code < colourCount

instance (c : Card) : Decidable c.Real := by unfold Real; infer_instance

/-- The card `Deck::draw` makes up when the deck has run out. -/
def placeholder : Card where
  number := 0
  colour := .empty
  colourRevealed := true
  numberRevealed := true

theorem not_real_placeholder : ¬ placeholder.Real := by decide

end Card

/-! ### The deck -/

/-- The cards `Deck::Deck` builds, before they are shuffled. -/
def builtCards : List Card :=
  (List.range colourCount).flatMap fun colNum =>
    let colour := Colours.ofCode colNum
    [⟨1, colour, false, false⟩, ⟨1, colour, false, false⟩, ⟨1, colour, false, false⟩] ++
      [2, 3, 4].flatMap (fun num => [⟨num, colour, false, false⟩, ⟨num, colour, false, false⟩]) ++
      [⟨5, colour, false, false⟩]

/-- What `Deck::shuffle` leaves: the built cards, in some order. -/
structure Shuffle where
  cards : List Card
  perm : cards.Perm builtCards

/-- The order in which the cards are built. -/
def Shuffle.unshuffled : Shuffle := ⟨builtCards, List.Perm.refl _⟩

/-- The cards and the cursor of `Deck::draw`. -/
structure Deck where
  cards : List Card
  nextCardIndex : ℕ
deriving DecidableEq, Repr

namespace Deck

/-- The constructor, with the outcome of the shuffle. -/
def ofShuffle (s : Shuffle) : Deck := ⟨s.cards, 0⟩

/-- `totalCards`, which the constructor sets to `cards.size()`. -/
def totalCards (d : Deck) : ℕ := d.cards.length

/-- `Deck::draw`. -/
def draw (d : Deck) : Card × Deck :=
  if h : d.nextCardIndex < d.totalCards then
    (d.cards.get ⟨d.nextCardIndex, h⟩, { d with nextCardIndex := d.nextCardIndex + 1 })
  else (Card.placeholder, d)

/-- The cards not drawn yet. -/
def undrawn (d : Deck) : List Card := d.cards.drop d.nextCardIndex

/-- **One draw**: the next undrawn card leaves the deck, or a drawn-out deck stays as it is. -/
theorem draw_cases (d : Deck) :
    d.undrawn = d.draw.1 :: d.draw.2.undrawn ∨
      d.undrawn = [] ∧ d.draw = (Card.placeholder, d) := by
  unfold draw undrawn
  split_ifs with h
  · exact Or.inl (List.drop_eq_getElem_cons h)
  · exact Or.inr ⟨List.drop_eq_nil_of_le (Nat.le_of_not_lt h), rfl⟩

/-- `n` draws in a row. -/
def drawN : ℕ → Deck → List Card × Deck
  | 0, d => ([], d)
  | n + 1, d => (d.draw.1 :: (drawN n d.draw.2).1, (drawN n d.draw.2).2)

@[simp] theorem length_drawN (n : ℕ) (d : Deck) : (drawN n d).1.length = n := by
  induction n generalizing d with
  | zero => rfl
  | succ n ih => simp [drawN, ih]

end Deck

theorem builtCards_fresh : ∀ c ∈ builtCards,
    c.Real ∧ c.colourRevealed = false ∧ c.numberRevealed = false := by decide

theorem length_builtCards : builtCards.length = 50 := rfl

theorem Shuffle.fresh (s : Shuffle) {c : Card} (h : c ∈ s.cards) :
    c.Real ∧ c.colourRevealed = false ∧ c.numberRevealed = false :=
  builtCards_fresh c (s.perm.mem_iff.mp h)

end HanabiBot.HanabiGame.Cards
