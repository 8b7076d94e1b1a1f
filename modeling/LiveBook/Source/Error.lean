import LiveBook.Event.Basic

/-!
# What can go wrong with a source

The errors of a market data source. Two of them are *fatal*: the stream that reports
one cannot be helped by starting it anew.
-/

namespace LiveBook

/-- An error of a market data source. -/
inductive SourceError where
  | connectionFailed (reason : String)
  | connectionClosed (code : Nat) (reason : String)
  /-- So many attempts to connect have failed, and there will be no more. -/
  | reconnectExhausted (attempts : Nat)
  | notConnected
  | sendFailed (reason : String)
  | heartbeatTimeout
  /-- A message could not be understood. -/
  | parse (reason : String)
  | request (reason : String)
  /-- There is no data for a market. -/
  | unknownMarket (market : MarketId)
  /-- Nobody takes the events of a stream any more. -/
  | outputClosed (stream : EventStream)
  | marketId (cause : MarketId.ParseError)
deriving DecidableEq, Repr

namespace SourceError

/-- The wording of an error. -/
def message : SourceError → String
  | .connectionFailed r => "Connection failed: " ++ r
  | .connectionClosed code r =>
    "Connection closed: code=" ++ Digits.natText code ++ ", reason=" ++ r
  | .reconnectExhausted n =>
    "Reconnect attempts exhausted after " ++ Digits.natText n ++ " tries"
  | .notConnected => "Not connected"
  | .sendFailed r => "Send failed: " ++ r
  | .heartbeatTimeout => "Heartbeat timeout"
  | .parse r => "Message parse error: " ++ r
  | .request r => "Request failed: " ++ r
  | .unknownMarket m => "No data for market " ++ m.name
  | .outputClosed s => "Output for " ++ s.name ++ " stream closed"
  | .marketId e => e.message

/-- Whether starting the stream anew cannot help. -/
def isFatal : SourceError → Bool
  | .reconnectExhausted _ => true
  | .outputClosed _ => true
  | _ => false

end SourceError

end LiveBook
