import HanabiBot.HanabiGame.State

/-! # The functions of a game

`game.cpp`, function by function. A loop of the source that asks until it is answered is an
`untilSome`; a round that goes on is one that yields `none`. `hands[i]` and the like are `element`,
which faults outside the vector. -/

namespace HanabiBot.HanabiGame.Play

open HanabiBot.Lib.Calls HanabiBot.Common.Messages
open HanabiBot.HanabiGame.Cards HanabiBot.HanabiGame.State

/-! ### Display -/

/-- The text of `Game::displayTokens`. -/
def tokensStr (g : Game) : String :=
  "== Tokens:\n" ++ "Blue: " ++ toString g.numBlueTokens ++ "\n" ++
    "Black: " ++ toString g.numBlackFuseTokens ++ "\n"

/-- The line of colour `j` in `Game::displayTable`. -/
def tableLine (g : Game) (j : ℕ) : Except Fault String :=
  match g.table[j]? with
  | some n => .ok (Card.getColourString (Colours.ofCode j) ++ ": " ++ toString n ++ "\n")
  | none => .error .outOfRange

/-- The text of `Game::displayTable`. -/
def tableStr (g : Game) : Except Fault String := do
  let lines ← (List.range colourCount).mapM (tableLine g)
  return "== Table:\n" ++ String.join lines

/-- `hands[j][k]`. -/
def cardAt (g : Game) (j k : ℕ) : Except Fault Card :=
  match g.hands[j]? with
  | some hand =>
    match hand[k]? with
    | some card => .ok card
    | none => .error .outOfRange
  | none => .error .outOfRange

/-- A card shown by `repr`, behind the assertion of `Card::getColourString`. -/
def shown (repr : Card → String) (card : Card) : Except Fault String :=
  if card.colour = .numColours then .error .assertion else .ok (repr card)

/-- The line of card `k` of player `j`, shown by `repr`. -/
def handLine (g : Game) (repr : Card → String) (j k : ℕ) : Except Fault String := do
  let card ← cardAt g j k
  let str ← shown repr card
  return " " ++ toString k ++ ": " ++ str ++ "\n"

/-- What player `i` is shown of the hand of player `j`. The assertion looks at the hand of the
recipient, and the loop runs to `5`, in the source. -/
def handStr (g : Game) (i j : ℕ) : Except Fault String := do
  match g.hands[i]? with
  | none => throw Fault.outOfRange
  | some hand =>
    if hand.length ≠ g.cardsPerHand then throw Fault.assertion
    else if i = j then
      let lines ← (List.range 5).mapM (handLine g Card.hiddenRepr i)
      return "Your hand:\n" ++ String.join lines
    else
      let lines ← (List.range 5).mapM (handLine g Card.fullRepr j)
      return "Player " ++ toString j ++ "'s hand:\n" ++ String.join lines

/-- The text of `Game::displayHands` for player `i`. -/
def handsStr (g : Game) (i : ℕ) : Except Fault String := do
  let strs ← (List.range g.numPlayers).mapM (handStr g i)
  return String.join strs

/-- `Game::displayTokens`. -/
def displayTokens (env : Env) : GameM PUnit := do
  let str ← readGame tokensStr
  broadcast env str

/-- `Game::displayTable`. -/
def displayTable (env : Env) : GameM PUnit := do
  let str ← checked tableStr
  broadcast env str

/-- `Game::displayHands`. -/
def displayHands (env : Env) : GameM PUnit := do
  let n ← readGame Game.numPlayers
  (List.range n).forM fun i => do
    let str ← checked fun g => handsStr g i
    let player ← element Game.players i
    sendInfo env player.socket str

/-- `Game::display`. -/
def display (env : Env) : GameM PUnit := do
  displayTokens env
  displayTable env
  displayHands env

/-! ### The three actions -/

/-- `deck.draw()`. -/
def draw : GameM Card := do
  let card ← readGame fun g => g.deck.draw.1
  modifyGame fun g => { g with deck := g.deck.draw.2 }
  return card

/-- `hands[playerIndex][cardIndex] = card`. -/
def setCard (playerIndex cardIndex : ℕ) (card : Card) : GameM PUnit :=
  modifyGame fun g =>
    { g with hands := g.hands.modify playerIndex fun hand => hand.set cardIndex card }

/-- `hands[playerIndex][cardIndex]`. -/
def getCard (playerIndex cardIndex : ℕ) : GameM Card :=
  checked fun g => cardAt g playerIndex cardIndex

/-- The dialogue `playCard` and `discardCard` begin with; `-1` is for another action. -/
def chooseCard (env : Env) (playerIndex : ℕ) (prompt : String) : GameM ℤ := do
  let player ← element Game.players playerIndex
  send_ env player.socket prompt
  let hand ← element Game.hands playerIndex
  requestInt env (-1) (hand.length - 1) "invalid card selected!\n" player

/-- `Game::playCard`. -/
def playCard (env : Env) (playerIndex : ℕ) : GameM Bool := do
  let cardIndex ← chooseCard env playerIndex
    "Select a card to play or enter -1 to change action: \n"
  if cardIndex = -1 then return false
  else
    let card ← getCard playerIndex cardIndex.toNat
    let top ← element Game.table card.colour.code
    if top + 1 = card.number then
      modifyGame fun g => { g with table := g.table.set card.colour.code card.number }
      let drawn ← draw
      setCard playerIndex cardIndex.toNat drawn
      modifyGame fun g =>
        if card.number = 5 ∧ g.numBlueTokens < Game.totalBlueTokens then
          { g with numBlueTokens := g.numBlueTokens + 1 }
        else g
      broadcast env ("Player " ++ toString playerIndex ++ " played " ++ card.fullRepr ++
        " successfully!\n")
    else
      modifyGame fun g => { g with numBlackFuseTokens := g.numBlackFuseTokens - 1 }
      modifyGame fun g => { g with discardPile := g.discardPile ++ [card] }
      broadcast env ("Player " ++ toString playerIndex ++ " played " ++ card.fullRepr ++
        " incorrectly!\n")
      let remaining ← readGame Game.numBlackFuseTokens
      broadcast env ("Black Fuse Token used! Remaining: " ++ toString remaining ++ "\n")
    return true

/-- `Game::discardCard`. -/
def discardCard (env : Env) (playerIndex : ℕ) : GameM Bool := do
  let cardIndex ← chooseCard env playerIndex
    "Select a card to discard or enter -1 to change action: \n"
  if cardIndex = -1 then return false
  else
    let card ← getCard playerIndex cardIndex.toNat
    let str ← checked fun _ => shown Card.fullRepr card
    broadcast env ("Player " ++ toString playerIndex ++ " discarded " ++ str ++ "\n")
    modifyGame fun g => { g with numBlueTokens := g.numBlueTokens + 1 }
    modifyGame fun g => { g with discardPile := g.discardPile ++ [card] }
    let drawn ← draw
    setCard playerIndex cardIndex.toNat drawn
    return true

/-- A kind of hint, with what `giveHint` does by its kind: which cards it targets, which flag it
sets on them and how it is worded. -/
inductive Hint where
  | colour (c : Colours)
  | number (n : ℤ)
deriving DecidableEq, Repr

namespace Hint

/-- The test of the loop that collects `targetedCards`. -/
def targets : Hint → Card → Bool
  | .colour c, card => card.colour = c
  | .number n, card => card.number = n

/-- Sets the flag of the hint. -/
def reveal : Hint → Card → Card
  | .colour _, card => { card with colourRevealed := true }
  | .number _, card => { card with numberRevealed := true }

/-- The attribute and its value, as the messages name them. -/
def words : Hint → String
  | .colour c => "colour " ++ Card.getColourString c
  | .number n => "number " ++ toString n

end Hint

/-- Sets the flag on the targeted cards of a hand. -/
def revealHand (hint : Hint) (hand : List Card) : List Card :=
  hand.map fun card => if hint.targets card then hint.reveal card else card

/-- The common end of the two loops of `giveHint`: collects the targeted cards, and gives the hint
if there are any. -/
def giveHintTo (env : Env) (player : Player) (playerIndex hinteeIndex : ℕ) (hint : Hint) :
    GameM (Option Bool) := do
  let hand ← element Game.hands hinteeIndex
  let targetedCards := hand.filter hint.targets
  if targetedCards.isEmpty then
    send_ env player.socket ("Player " ++ toString hinteeIndex ++ " has no cards of " ++ hint.words ++
      ", give another hint\n")
    return none
  else
    broadcast env ("Player " ++ toString playerIndex ++ " gave a hint to Player " ++
      toString hinteeIndex ++ " about the " ++ hint.words ++ "\n")
    modifyGame fun g => { g with numBlueTokens := g.numBlueTokens - 1 }
    modifyGame fun g => { g with hands := g.hands.modify hinteeIndex (revealHand hint) }
    return some true

/-- One round of the loop of `giveHint` that asks for the hintee. -/
def hinteeRound (env : Env) (player : Player) (playerIndex : ℕ) : GameM (Option ℤ) := do
  let n ← readGame Game.numPlayers
  let hinteeIndex ← requestInt env (-1) (n - 1) "Invalid player selected!\n" player
  if hinteeIndex = playerIndex then
    send_ env player.socket "You cannot give a hint to yourself!\n"
    return none
  else return some hinteeIndex

/-- One round of the loop of the colour hint. -/
def colourRound (env : Env) (player : Player) (playerIndex hinteeIndex : ℕ) :
    GameM (Option Bool) := do
  let colourIndex ← requestInt env (-1) (colourCount - 1) "Invalid colour selected!\n" player
  if colourIndex = -1 then return some false
  else giveHintTo env player playerIndex hinteeIndex (.colour (Colours.ofCode colourIndex.toNat))

/-- One round of the loop of the number hint. -/
def numberRound (env : Env) (player : Player) (playerIndex hinteeIndex : ℕ) :
    GameM (Option Bool) := do
  let number ← requestInt env (-1) 5 "Invalid number selected!\n" player
  if number = 0 then
    send_ env player.socket "Number cannot be 0!\n"
    return none
  else if number = -1 then return some false
  else giveHintTo env player playerIndex hinteeIndex (.number number)

/-- The part of `giveHint` behind the prompt for the hintee. -/
def hintDialogue (env : Env) (player : Player) (playerIndex : ℕ) : GameM Bool := do
  let hinteeIndex ← untilSome .outOfFuel World.pending (hinteeRound env player playerIndex)
  if hinteeIndex = -1 then return false
  else
    send_ env player.socket "Select which information to give, or -1 to pick another action:\n"
    send_ env player.socket "0. Colour\n"
    send_ env player.socket "1. Number\n"
    let hintType ← requestInt env (-1) 1 "Invalid hint type selected!\n" player
    if hintType = -1 then return false
    else if hintType = 0 then
      send_ env player.socket "Select a colour to hint or -1 to pick another action: \n"
      (List.range colourCount).forM fun i =>
        send_ env player.socket
          (toString i ++ ". " ++ Card.getColourString (Colours.ofCode i) ++ "\n")
      untilSome .outOfFuel World.pending (colourRound env player playerIndex hinteeIndex.toNat)
    else
      send_ env player.socket "Select a number to hint or -1 to pick another action: \n"
      [1, 2, 3, 4, 5].forM fun i : ℕ => send_ env player.socket (toString i ++ "\n")
      untilSome .outOfFuel World.pending (numberRound env player playerIndex hinteeIndex.toNat)

/-- `Game::giveHint`. -/
def giveHint (env : Env) (playerIndex : ℕ) : GameM Bool := do
  let player ← element Game.players playerIndex
  let numBlueTokens ← readGame Game.numBlueTokens
  if numBlueTokens = 0 then
    send_ env player.socket "No blue tokens left to give hints!\n"
    return false
  else
    send_ env player.socket "Select a player to give hint to, or -1 to go back: \n"
    hintDialogue env player playerIndex

/-! ### Turns and the game loop -/

/-- `Game::selectAction`. -/
def selectAction (env : Env) (playerIndex : ℕ) : GameM Bool := do
  let player ← element Game.players playerIndex
  let action ← requestInt env 0 2 "Invalid action. Please try again.\n" player
  if action = 0 then playCard env playerIndex
  else if action = 1 then discardCard env playerIndex
  else if action = 2 then giveHint env playerIndex
  else fault .assertion

/-- One round of the loop of `Game::turn`. -/
def turnRound (env : Env) (playerIndex : ℕ) : GameM (Option PUnit) := do
  let done ← selectAction env playerIndex
  return if done then some ⟨⟩ else none

/-- `Game::turn`. -/
def turn (env : Env) (playerIndex : ℕ) : GameM PUnit := do
  display env
  let player ← element Game.players playerIndex
  sendInfo env player.socket "It's your turn!\n"
  let players ← readGame Game.players
  players.zipIdx.forM fun p =>
    if p.2 ≠ playerIndex then
      sendInfo env p.1.socket
        ("It's player " ++ toString playerIndex ++ "'s turn! (" ++ player.name ++ ")\n")
    else return ⟨⟩
  untilSome .outOfFuel World.pending (turnRound env playerIndex)

/-- The deal of `Game::start`: a hand of `cardsPerHand` cards for each of `n` players. -/
def dealHands (cardsPerHand : ℕ) : ℕ → Deck → List (List Card) × Deck
  | 0, d => ([], d)
  | n + 1, d =>
    let hand := d.drawN cardsPerHand
    let rest := dealHands cardsPerHand n hand.2
    (hand.1 :: rest.1, rest.2)

/-- `Game::start` up to its main loop: the deal and the tokens. -/
def deal (g : Game) : Game :=
  let dealt := dealHands g.cardsPerHand g.numPlayers g.deck
  { g with
    hands := dealt.1
    deck := dealt.2
    numBlueTokens := Game.totalBlueTokens
    numBlackFuseTokens := Game.totalBlackFuseTokens }

/-- The sum `totalPts` of `Game::start`. -/
def totalPts (g : Game) : Except Fault ℤ :=
  (List.range colourCount).foldlM (fun totalPts i =>
    match g.table[i]? with
    | some top => .ok (totalPts + top)
    | none => .error .outOfRange) 0

/-- The `catch (const std::exception&)` of `Game::start`. -/
def catchExn {α : Type} (p : GameM α) (handler : Exn → GameM α) : GameM α := fun w =>
  match p w with
  | .error (.exn e) w' => handler e w'
  | r => r

/-- The body of that handler. -/
def endGame (env : Env) : GameM PUnit := do
  broadcast env "An error occurred in the game loop! likely that someone left :(\n"
  broadcast env "Ending Game...\n"

/-- `Game::start`. The main loop returns after its first turn ("only do 1 turn for now"), so that
its game-over test, with the score, and the closing messages behind it are not reached. -/
def start (env : Env) : GameM PUnit := do
  modifyGame deal
  catchExn (turn env 0) fun _ => endGame env

end HanabiBot.HanabiGame.Play
