import CryptoQuant.Events.Market
import CryptoQuant.Events.Messages
import CryptoQuant.Lib.Run

/-!
# The kline client

`BinanceKlineWSClient` of `market/ws_client.py`: `run_forever` cut at its calls of
the socket factory, of the socket, of the callback and of `sleep_fn`, and at its
readings of `_stopped`, between which another thread can call `stop()`. What the
client does to its surroundings is a trace of effects.
-/

namespace CryptoQuant.Kline
set_option autoImplicit false

/-- `_parse_market_event`, from the kline on. -/
def parseKline (py : JsonBuiltins) (kline : Json) : Except PyError (Option MarketEvent) := do
  let interval ← kline.get "i"
  let closed ← kline.get "x"
  if !Json.isText "1m" interval || !Json.truthyOpt closed then pure none
  else do
    let symbol ← (← kline.get "s").elim (.error .keyError) .ok
    let close ← py.float (← (← kline.get "c").elim (.error .keyError) .ok)
    let closeMs ← py.int (← (← kline.get "T").elim (.error .keyError) .ok)
    pure (some { symbol := py.str symbol, timeframe := .m1, close, ts := closeMs * 1000, source := "binance_ws" })

/-- `_parse_market_event`. -/
def parseMarketEvent (py : JsonBuiltins) (raw : Message) : Except PyError (Option MarketEvent) := do
  let payload ← raw
  let data ← payload.dataOf
  match ← data.get "k" with
  | some (.object members) => parseKline py (.object members)
  | _ => pure none

/-- The settings of `BinanceKlineWSClient`. -/
structure Settings where
  symbols : List String
  baseUrl : String := "wss://stream.binance.com:9443/stream?streams="
  reconnectInitialSec : ℚ := 1
  reconnectMaxSec : ℚ := 8

/-- The constructor's check, and its lower-case symbols. -/
def Settings.new (symbols : List String) (reconnectInitialSec : ℚ := 1) (reconnectMaxSec : ℚ := 8) :
    Except PyError Settings := do
  raiseIf (symbols = []) (.valueError "symbols cannot be empty")
  pure { symbols := symbols.map strLower, reconnectInitialSec, reconnectMaxSec }

/-- `stream_url`. -/
def Settings.streamUrl (settings : Settings) : String :=
  settings.baseUrl ++ "/".intercalate (settings.symbols.map fun s => s ++ "@kline_1m")

/-- What the client does to its surroundings. Sockets are numbered. -/
inductive Effect
  | opened (ws : ℕ) (url : String)
  | received (raw : Message)
  | delivered (event : MarketEvent)
  | closed (ws : ℕ)
  | slept (seconds : ℚ)

/-- What the thread of `run_forever` does next. -/
inductive ClientPc
  | outer                                   -- `while not self._stopped`
  | opening                                 -- `self._ws_factory(self.stream_url)`
  | inner (ws : ℕ)                          -- the inner `while not self._stopped`
  | receiving (ws : ℕ)                      -- `ws.recv()`
  | parsing (ws : ℕ) (raw : Message)        -- `_parse_market_event(raw)` and `_on_event`
  -- The handler, with the socket that `finally` closes.
  | handling (ws : Option ℕ)                -- `if self._stopped`
  | sleeping (ws : Option ℕ)                -- `self._sleep_fn(backoff)`
  | returned
  | raised

/-- What the call at hand does: the factory and the callback return or raise, and
`recv()` also returns a message. -/
inductive Outcome
  | returns
  | receives (raw : Message)
  | raises

/-- `BinanceKlineWSClient`, with the locals of `run_forever`. -/
structure Client where
  settings : Settings
  stopped : Bool := false
  backoff : ℚ := settings.reconnectInitialSec
  pc : ClientPc := .outer
  opened : ℕ := 0
  trace : List Effect := []

namespace Client

/-- The `try` statement is left, and `finally` closes the socket if there is one. -/
def leave (c : Client) (ws : Option ℕ) (pc : ClientPc) : Client :=
  { c with pc, trace := c.trace ++ ws.toList.map Effect.closed }

/-- The next action of `run_forever`. -/
def step (py : JsonBuiltins) (c : Client) (outcome : Outcome) : Client :=
  match c.pc with
  | .outer => { c with pc := if c.stopped then .returned else .opening }
  | .opening =>
    match outcome with
    | .raises => { c with pc := .handling none }
    | _ => { c with backoff := c.settings.reconnectInitialSec, pc := .inner c.opened, opened := c.opened + 1,
                    trace := c.trace ++ [Effect.opened c.opened c.settings.streamUrl] }
  | .inner ws => if c.stopped then c.leave (some ws) .outer else { c with pc := .receiving ws }
  | .receiving ws =>
    match outcome with
    | .receives raw => { c with pc := .parsing ws raw, trace := c.trace ++ [Effect.received raw] }
    | _ => { c with pc := .handling (some ws) }
  | .parsing ws raw =>
    match parseMarketEvent py raw with
    | .error _ => { c with pc := .handling (some ws) }
    | .ok none => { c with pc := .inner ws }
    | .ok (some event) =>
      let c := { c with trace := c.trace ++ [Effect.delivered event] }
      match outcome with
      | .raises => { c with pc := .handling (some ws) }
      | _ => { c with pc := .inner ws }
  | .handling ws => if c.stopped then c.leave ws .returned else { c with pc := .sleeping ws }
  | .sleeping ws =>
    { c with trace := c.trace ++ [Effect.slept c.backoff],
             backoff := min (c.backoff * 2) c.settings.reconnectMaxSec }.leave ws .outer
  | .returned => c
  | .raised => c

/-- `stop`. -/
def stop (c : Client) : Client := { c with stopped := true }

/-- A `KeyboardInterrupt` in the thread of `run_forever`, which is raised again. -/
def interrupt (c : Client) : Client :=
  match c.pc with
  | .inner ws | .receiving ws | .parsing ws _ => c.leave (some ws) .raised
  | .handling ws | .sleeping ws => c.leave ws .raised
  | .outer | .opening => { c with pc := .raised }
  | .returned | .raised => c

end Client

/-- What can happen to a client. -/
inductive Action
  | go (outcome : Outcome)
  | stop
  | interrupt

/-- The client among its surroundings. -/
def machine (py : JsonBuiltins) : Run.Machine Client Action Unit where
  call c
    | .go outcome => ((), c.step py outcome)
    | .stop => ((), c.stop)
    | .interrupt => ((), c.interrupt)

end CryptoQuant.Kline
