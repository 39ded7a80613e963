import ArbitrageEngine.Core.FixedPoint

/-!
# Normalised market events

`include/core/{venue,instrument,side,book_state,timestamp,market_event}.hpp`.
-/

namespace ArbitrageEngine.Core

/-- The values of an enumeration beside its `names` enumerators, which count from zero: the
underlying type of an `enum class` is `int`, and each of its values can be cast to the
enumeration. -/
abbrev Unnamed (names : Nat) := { value : Int32 // value.toInt < 0 ∨ names ≤ value.toInt }

/-- `core::Venue`, `include/core/venue.hpp:5–8`. -/
inductive Venue
  | coinbase
  | kraken
  | other (value : Unnamed 2)
  deriving DecidableEq, Repr

/-- The venues with a name, for which sessions are captured. -/
inductive KnownVenue
  | coinbase
  | kraken
  deriving DecidableEq, Repr

/-- The enumerator of a known venue. -/
@[coe]
def KnownVenue.toVenue : KnownVenue → Venue
  | coinbase => .coinbase
  | kraken => .kraken

instance : Coe KnownVenue Venue := ⟨KnownVenue.toVenue⟩

/-- `core::Instrument`, `include/core/instrument.hpp:5–7`. -/
inductive Instrument
  | btcUsd
  | other (value : Unnamed 1)
  deriving DecidableEq, Repr

/-- `core::Side`, `include/core/side.hpp:5–8`. -/
inductive Side
  | bid
  | ask
  | other (value : Unnamed 2)
  deriving DecidableEq, Repr

/-- `core::BookState` (`include/core/book_state.hpp:5–12`). -/
inductive BookState
  | initializing
  | valid
  | stale
  | resyncing
  | disconnected
  | invalid
  deriving DecidableEq, Repr

/-- `core::ExchangeTimestamp` (`include/core/timestamp.hpp:7–11`). -/
structure ExchangeTimestamp where
  nanoseconds : Int
  deriving DecidableEq, Repr

/-- `core::ReceiveWallTimestamp` (`include/core/timestamp.hpp:13–17`). -/
structure ReceiveWallTimestamp where
  nanoseconds : Int
  deriving DecidableEq, Repr

/-- `core::ReceiveMonotonicTimestamp` (`include/core/timestamp.hpp:19–23`). -/
structure ReceiveMonotonicTimestamp where
  nanoseconds : Int
  deriving DecidableEq, Repr

/-- `core::BookLevel`: an absolute quantity at one price, zero deletes
(`include/core/market_event.hpp:19–25`). -/
structure BookLevel where
  side : Side
  price : PriceTicks
  quantity : QuantityAtoms
  deriving DecidableEq, Repr

/-- `core::BookSnapshot` (`include/core/market_event.hpp:27–39`). -/
structure BookSnapshot where
  venue : Venue
  instrument : Instrument
  levels : List BookLevel
  exchangeTime : ExchangeTimestamp
  receiveWallTime : ReceiveWallTimestamp
  receiveMonotonicTime : ReceiveMonotonicTimestamp
  sequence : Option Nat
  deriving DecidableEq, Repr

/-- `core::BookUpdate` (`include/core/market_event.hpp:41–53`). -/
structure BookUpdate where
  venue : Venue
  instrument : Instrument
  changes : List BookLevel
  exchangeTime : ExchangeTimestamp
  receiveWallTime : ReceiveWallTimestamp
  receiveMonotonicTime : ReceiveMonotonicTimestamp
  sequence : Option Nat
  deriving DecidableEq, Repr

/-- `core::MarketEvent` (`include/core/market_event.hpp:55`). -/
inductive MarketEvent
  | snapshot (event : BookSnapshot)
  | update (event : BookUpdate)
  deriving DecidableEq, Repr

/-- `std::holds_alternative<BookSnapshot>(event)`. -/
def MarketEvent.isSnapshot : MarketEvent → Bool
  | snapshot _ => true
  | update _ => false

end ArbitrageEngine.Core
