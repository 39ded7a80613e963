import ArbitrageEngine.Base.TreeMap
import ArbitrageEngine.Core.MarketEvent

/-!
# The canonical order book

`src/core/order_book.cpp`. `apply` returns the book it leaves behind with its `bool`;
a rejected event leaves the very same book.
-/

namespace ArbitrageEngine.Core

open Base Std

/-- `std::greater<PriceTicks>`: the order of the bid side. -/
def greater (a b : PriceTicks) : Ordering := compare b a

instance : TransCmp greater := inferInstanceAs (TransCmp fun a b : PriceTicks ↦ compare b a)

instance : LawfulEqCmp greater where
  eq_of_compare h := (LawfulEqOrd.eq_of_compare h).symm

/-- `std::less<PriceTicks>`: the order of the ask side. -/
def less (a b : PriceTicks) : Ordering := compare a b

instance : TransCmp less := inferInstanceAs (TransCmp fun a b : PriceTicks ↦ compare a b)

instance : LawfulEqCmp less where
  eq_of_compare h := LawfulEqOrd.eq_of_compare h

/-- One side of a book, in the order `cmp` of its prices. -/
abbrev Levels (cmp : PriceTicks → PriceTicks → Ordering) := ExtTreeMap PriceTicks QuantityAtoms cmp

/-- `core::BidLevels` (`include/core/order_book.hpp:12`). -/
abbrev BidLevels := Levels greater

/-- `core::AskLevels` (`include/core/order_book.hpp:13`). -/
abbrev AskLevels := Levels less

/-- `valid_level` (`src/core/order_book.cpp:6–10`). -/
def validLevel (level : BookLevel) (snapshot : Bool) : Bool :=
  (level.side = .bid || level.side = .ask) && 0 < level.price.raw &&
    (if snapshot then 0 < level.quantity.raw else 0 ≤ level.quantity.raw)

/-- The loop of `stage_update`: the last quantity of each touched price, zeros included
(`src/core/order_book.cpp:18–25`). -/
def stageChanges : List BookLevel → BidLevels × AskLevels → Option (BidLevels × AskLevels)
  | [], staged => some staged
  | change :: rest, (bids, asks) =>
    if validLevel change false then
      match change.side with
      | .bid => stageChanges rest (bids.insert change.price change.quantity, asks)
      | _ => stageChanges rest (bids, asks.insert change.price change.quantity)
    else none

/-- `stage_update`; `none` is its `false` (`src/core/order_book.cpp:14–27`). -/
def stageUpdate (update : BookUpdate) (venue : Venue) (instrument : Instrument)
    (staged : BidLevels × AskLevels) : Option (BidLevels × AskLevels) :=
  if update.venue ≠ venue ∨ update.instrument ≠ instrument then none
  else stageChanges update.changes staged

section Commit

variable {cmp : PriceTicks → PriceTicks → Ordering} [TransCmp cmp] [LawfulEqCmp cmp]

/-- One round of `commit_changes`: the extracted node goes into the levels
(`src/core/order_book.cpp:31–40`). -/
def commitNode (levels : Levels cmp) (node : PriceTicks × QuantityAtoms) : Levels cmp :=
  match levels[node.1]? with
  | some _ => if node.2.raw = 0 then levels.erase node.1 else levels.insert node.1 node.2
  | none => if node.2.raw = 0 then levels else levels.insertIfNew node.1 node.2

/-- `commit_changes`: nodes leave the staged map in its order (`src/core/order_book.cpp:28–42`). -/
def commitChanges (levels changes : Levels cmp) : Levels cmp :=
  changes.toList.foldl commitNode levels

end Commit

/-- `core::OrderBook` (`include/core/order_book.hpp:15–47`). -/
@[ext]
structure OrderBook where
  venue : Venue
  instrument : Instrument
  state : BookState
  bids : BidLevels
  asks : AskLevels
  lastSequence : Option Nat

namespace OrderBook

/-- The constructor (`src/core/order_book.cpp:46–47`). -/
def create (venue : Venue) (instrument : Instrument) : OrderBook :=
  ⟨venue, instrument, .initializing, ∅, ∅, none⟩

/-- `mark_initializing`, `mark_stale`, `mark_resyncing`, `mark_disconnected`, `invalidate`
(`include/core/order_book.hpp:24–28`). -/
def mark (book : OrderBook) (state : BookState) : OrderBook := { book with state }

/-- A marked book is in the state that it was marked with. -/
theorem state_mark (book : OrderBook) (state : BookState) : (book.mark state).state = state := rfl

/-- The loop of `apply(BookSnapshot)`: invalid and repeated levels reject
(`src/core/order_book.cpp:56–66`). -/
def snapshotLevels : List BookLevel → BidLevels × AskLevels → Option (BidLevels × AskLevels)
  | [], sides => some sides
  | level :: rest, (bids, asks) =>
    if validLevel level true then
      match level.side with
      | .bid =>
        if bids.contains level.price then none
        else snapshotLevels rest (bids.insertIfNew level.price level.quantity, asks)
      | _ =>
        if asks.contains level.price then none
        else snapshotLevels rest (bids, asks.insertIfNew level.price level.quantity)
    else none

/-- `apply(const BookSnapshot&)` (`src/core/order_book.cpp:49–73`). -/
def applySnapshot (book : OrderBook) (snapshot : BookSnapshot) : OrderBook × Bool :=
  if snapshot.venue ≠ book.venue ∨ snapshot.instrument ≠ book.instrument then (book, false)
  else
    match snapshotLevels snapshot.levels (∅, ∅) with
    | none => (book, false)
    | some (bids, asks) =>
      ({ book with bids, asks, lastSequence := snapshot.sequence, state := .valid }, true)

/-- Both `commit_changes` calls and the new sequence (`src/core/order_book.cpp:108–110`). -/
def commit (book : OrderBook) (staged : BidLevels × AskLevels) (sequence : Option Nat) :
    OrderBook :=
  { book with
    bids := commitChanges book.bids staged.1
    asks := commitChanges book.asks staged.2
    lastSequence := sequence }

/-- `apply(const BookUpdate&)` (`src/core/order_book.cpp:75–85`). -/
def applyUpdate (book : OrderBook) (update : BookUpdate) : OrderBook × Bool :=
  if book.state ≠ .valid then (book, false)
  else
    match stageUpdate update book.venue book.instrument (∅, ∅) with
    | none => (book, false)
    | some staged => (book.commit staged update.sequence, true)

/-- `std::visit` over `apply` (`src/core/order_book.cpp:95`). -/
def applyEvent (book : OrderBook) : MarketEvent → OrderBook × Bool
  | .snapshot event => book.applySnapshot event
  | .update event => book.applyUpdate event

/-- The loop over a staged copy in `apply(span)`; `none` on the first rejection
(`src/core/order_book.cpp:93–98`). -/
def applyStaged : List MarketEvent → OrderBook → Option OrderBook
  | [], staged => some staged
  | value :: rest, staged =>
    match staged.applyEvent value with
    | (_, false) => none
    | (next, true) => applyStaged rest next

/-- The staging loop of the update-only path of `apply(span)`
(`src/core/order_book.cpp:105–107`). -/
def stageUpdates (venue : Venue) (instrument : Instrument) :
    List BookUpdate → BidLevels × AskLevels → Option (BidLevels × AskLevels)
  | [], staged => some staged
  | update :: rest, staged =>
    match stageUpdate update venue instrument staged with
    | none => none
    | some next => stageUpdates venue instrument rest next

/-- The `BookUpdate`s of an event list; on the update-only path these are all of it. -/
def updatesOf (events : List MarketEvent) : List BookUpdate :=
  events.filterMap fun
    | .snapshot _ => none
    | .update event => some event

/-- `apply(std::span<const MarketEvent>)` (`src/core/order_book.cpp:87–112`). -/
def applyEvents (book : OrderBook) (events : List MarketEvent) : OrderBook × Bool :=
  if events.isEmpty then (book, true)
  else if events.any MarketEvent.isSnapshot then
    match applyStaged events book with
    | none => (book, false)
    | some staged => (staged, true)
  else if book.state ≠ .valid then (book, false)
  else
    match stageUpdates book.venue book.instrument (updatesOf events) (∅, ∅) with
    | none => (book, false)
    | some staged => (book.commit staged ((updatesOf events).getLast?.bind (·.sequence)), true)

/-- `best_bid` (`src/core/order_book.cpp:120–126`). -/
def bestBid (book : OrderBook) : Option BookLevel :=
  if book.state ≠ .valid then none
  else book.bids.toList.head?.map fun (price, quantity) ↦ ⟨.bid, price, quantity⟩

/-- `best_ask` (`src/core/order_book.cpp:128–134`). -/
def bestAsk (book : OrderBook) : Option BookLevel :=
  if book.state ≠ .valid then none
  else book.asks.toList.head?.map fun (price, quantity) ↦ ⟨.ask, price, quantity⟩

/-- `has_two_sided_market` (`src/core/order_book.cpp:136–138`). -/
def hasTwoSidedMarket (book : OrderBook) : Bool :=
  book.state = .valid && !book.bids.isEmpty && !book.asks.isEmpty

end OrderBook

end ArbitrageEngine.Core
