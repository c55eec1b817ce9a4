import EspCfTunnel.Core

/-!
# The choice of an edge

The records of a DNS answer, and how `discover` chooses one of the advertised SRV records: they are
sorted by priority, reconnects rotate over them, and within one priority the weights decide.
-/

namespace EspCfTunnel.Dns

open EspCfTunnel

/-- `cf_dns_record`. -/
structure Record where
  target : Bytes := []
  ip : Bytes := []
  priority : Nat := 0
  weight : Nat := 0
  port : Nat := 0
  ttl : Nat := 0
  deriving DecidableEq, Repr

/-- `cf_dns_answer`. -/
abbrev Answer := List Record

/-- The record at an index. -/
def Answer.nth (records : Answer) (i : Nat) : Record := records.getD i {}

/-- The body of the sorting loops: records `i` and `j` are exchanged if `j` comes first. -/
def exchange (i : Nat) (records : Answer) (j : Nat) : Answer :=
  if (records.nth j).priority < (records.nth i).priority then
    (records.set i (records.nth j)).set j (records.nth i)
  else records

/-- The sorting loops. -/
def sortByPriority (records : Answer) : Answer :=
  (List.range records.length).foldl
    (fun records i => (List.range' (i + 1) (records.length - (i + 1))).foldl (exchange i) records)
    records

/-- The loop that looks for the first record of a priority. -/
def firstOf (records : Answer) (priority : Nat) : Nat → Nat
  | 0 => 0
  | i + 1 => if (records.nth i).priority = priority then firstOf records priority i else i + 1

/-- The loop that looks for the last record of a priority, for `fuel` rounds at most. -/
def lastOf (records : Answer) (priority : Nat) : Nat → Nat → Nat
  | 0, i => i
  | fuel + 1, i =>
    if i + 1 < records.length ∧ (records.nth (i + 1)).priority = priority then
      lastOf records priority fuel (i + 1)
    else i

/-- The loop that spends `value` on the weights, for `fuel` rounds at most. -/
def spend (records : Answer) (last : Nat) : Nat → Nat → Nat → Nat
  | 0, pick, _ => pick
  | fuel + 1, pick, value =>
    if pick < last then
      if value < (records.nth pick).weight then pick
      else spend records last fuel (pick + 1) (value - (records.nth pick).weight)
    else pick

/-- The index that `discover` picks among sorted records, in its attempt number `attempts`. -/
def pickRecord (records : Answer) (attempts random : Nat) : Nat :=
  let pick := (attempts + 2 ^ 32 - 1) % 2 ^ 32 % records.length
  let priority := (records.nth pick).priority
  let first := firstOf records priority pick
  let last := lastOf records priority records.length pick
  let weights := ((List.range' first (last + 1 - first)).map fun i => (records.nth i).weight).sum
    % 2 ^ 32
  if weights ≠ 0 then spend records last records.length first (random % weights) else pick

end EspCfTunnel.Dns
