import RadioWindows.Driver

/-! The operations of the driver as data, so that sequences of them can be run and reasoned
about. -/

namespace RadioWindows

inductive Operation where
  | setUp
  | scratchLength
  | mountScratch (window : Window)
  | unmountScratch (window : Window)
  | allocate (traffic : Traffic) (size : UInt16)
  | discardTx (traffic : Traffic)
  | discardRx (traffic : Traffic)
  | mountRx (window : Window)
  | send (traffic : Traffic) (size : UInt16)
  | copy (src dst : Window) (size : UInt16)
  | move (move : Move)
  | setIndex (window : Window) (index : UInt16)
  | isOutOfBounds (window : Window)
  | dataState (window : DataWindow)
  | timing
  | read (window : Window) (count : Nat)
  | readAt (window : Window) (index : UInt16) (count : Nat)
  | write (window : Window) (bytes : Bytes)
  | writeAt (window : Window) (index : UInt16) (bytes : Bytes)
deriving DecidableEq, Repr

inductive Answer where
  | nothing
  | count (count : UInt16)
  | length (length : Option UInt16)
  | granted
  | refused (refusal : Refusal)
  | flag (set : Bool)
  | state (state : MountState)
  | timing (timing : Timing)
  | bytes (bytes : Bytes)
deriving DecidableEq, Repr

def Answer.ofVerdict : Except Refusal Unit → Answer
  | .ok () => granted
  | .error refusal => refused refusal

def Operation.perform : Operation → Driver Answer
  | setUp => .count <$> Driver.setUp
  | scratchLength => do return .length (← get).scratchLength
  | mountScratch w => .count <$> Driver.mountScratch w
  | unmountScratch w => do Driver.unmountScratch w; return .nothing
  | allocate traffic size => .ofVerdict <$> Driver.allocate traffic size
  | discardTx traffic => do Driver.discardTx traffic; return .nothing
  | discardRx traffic => do Driver.discardRx traffic; return .nothing
  | mountRx w => .count <$> Driver.mountRx w
  | send traffic size => do Driver.send traffic size; return .nothing
  | copy src dst size => .count <$> Driver.copy src dst size
  | move issued => .count <$> Driver.issue issued
  | setIndex w index => do Driver.setIndex w index; return .nothing
  | isOutOfBounds w => do return .flag ((← get).outOfBounds.contains w)
  | dataState w => do return .state ((← get).dataStates.get w)
  | timing => do return .timing (← get).timing
  | read w count => .bytes <$> Driver.read w count
  | readAt w index count => .bytes <$> Driver.readAt w index count
  | write w bytes => do Driver.write w bytes; return .nothing
  | writeAt w index bytes => do Driver.writeAt w index bytes; return .nothing

end RadioWindows
