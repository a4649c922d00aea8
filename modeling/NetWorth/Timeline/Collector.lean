import NetWorth.Failure
import NetWorth.Keyed
import NetWorth.Timeline.Trigger

/-! # The collector of change points

Triggers are gathered under their instant, in order of arrival, and the assets named by balances are
remembered. Finishing sorts the instants and closes the collector for good. -/
namespace NetWorth

/-- What makes two timestamps one: whether the clock's offset is known, and the instant. -/
def Timestamp.moment (t : Timestamp) : Bool × Int := (t.isAware, t.instant)

structure Collector where
  points : Keyed (Bool × Int) ChangePoint
  held : Keyed AssetId Asset
  consumed : Bool

namespace Collector

def empty : Collector := ⟨[], [], false⟩

def requireOpen (collector : Collector) : Except Failure Unit :=
  if collector.consumed then .error .collectorConsumed else .ok ()

def withTrigger (timestamp : Timestamp) (trigger : Trigger) : Option ChangePoint → ChangePoint
  | none => ⟨timestamp, [trigger]⟩
  | some point => { point with triggers := point.triggers ++ [trigger] }

def addTrigger (collector : Collector) (timestamp : Timestamp) (trigger : Trigger) : Collector :=
  let moment := timestamp.moment
  { collector with
    points := Keyed.put moment (withTrigger timestamp trigger (Keyed.get? moment collector.points))
      collector.points }

/-- Remembers an asset under its identity, the first spelling of it for good. -/
def hold (collector : Collector) (asset : Asset) : Collector :=
  let id := AssetId.ofAsset asset
  match Keyed.get? id collector.held with
  | some _ => collector
  | none => { collector with held := Keyed.put id asset.normalize collector.held }

def addBalance (collector : Collector) (timestamp : Timestamp) (accountId : String)
    (record : AssetRecord) : Except Failure Collector := do
  collector.requireOpen
  let asset ← record.asset
  return (collector.hold asset).addTrigger timestamp (.balance accountId asset)

def addPrice (collector : Collector) (timestamp : Timestamp) (assetId : AssetId) :
    Except Failure Collector := do
  collector.requireOpen
  return collector.addTrigger timestamp (.price assetId)

def addRate (collector : Collector) (timestamp : Timestamp) (base quote : String) :
    Except Failure Collector := do
  collector.requireOpen
  return collector.addTrigger timestamp (.rate base quote)

def heldIds (collector : Collector) : List AssetId := AssetId.sort (Keyed.keys collector.held)

/-- Timestamps can be sorted when all offsets are known or none is. -/
def comparable (points : Keyed (Bool × Int) ChangePoint) : Bool :=
  points.all (·.1.1) || points.all (!·.1.1)

def sorted (points : Keyed (Bool × Int) ChangePoint) : List ChangePoint :=
  (points.mergeSort fun a b => decide (a.1.2 ≤ b.1.2)).map fun e =>
    { e.2 with triggers := Trigger.arrange e.2.triggers }

/-- Hands out the change points. The collector is closed even if they cannot be sorted. -/
def finish (collector : Collector) : Except Failure (List ChangePoint) × Collector :=
  if collector.consumed then (.error .collectorConsumed, collector)
  else if comparable collector.points then
    (.ok (sorted collector.points), { collector with points := [], consumed := true })
  else (.error .incomparableTimestamps, { collector with consumed := true })

end Collector

end NetWorth
