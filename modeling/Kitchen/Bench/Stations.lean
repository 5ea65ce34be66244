import Kitchen.Station.Simulated

namespace Kitchen.Bench

inductive Offer where
  | held (number : Nat)
  | new (product : Product)
deriving Repr

inductive StationStep where
  | produce (station : Nat)
  | accept (station : Nat) (offer : Offer)
  | look (offer : Offer)
  | start (station : Nat)
  | stop (station : Nat)
  | counters (station : Nat)
  | describe (station : Nat)
deriving Repr

inductive StationAnswer where
  | nothing
  | held (number : Nat) (product : Product)
  | failed (error : StationError)
  | accepted
  | seen (product : Product)
  | counters (station : SimulatedStation)
  | text (value : String)
  | noProduct
  | noStation
deriving Repr

structure StationBench where
  stations : List SimulatedStation
  held : List (Option Product)
deriving Repr

namespace StationBench

def product? (b : StationBench) : Offer → Option Product
  | .held number => b.held[number]?.join
  | .new product => some product

def remove (b : StationBench) : Offer → StationBench
  | .held number => { b with held := b.held.set number none }
  | .new _ => b

def onStation (b : StationBench) (number : Nat)
    (use : SimulatedStation → StationAnswer × StationBench) : StationAnswer × StationBench :=
  match b.stations[number]? with
  | some station => use station
  | none => (.noStation, b)

def setStation (b : StationBench) (number : Nat) (station : SimulatedStation) : StationBench :=
  { b with stations := b.stations.set number station }

def takeStep (b : StationBench) : StationStep → StationAnswer × StationBench
  | .produce number =>
    b.onStation number fun station =>
      match station.produce with
      | (.ok product, after) =>
        (.held b.held.length product,
          { b.setStation number after with held := b.held ++ [some product] })
      | (.error error, after) => (.failed error, b.setStation number after)
  | .accept number offer =>
    b.onStation number fun station =>
      match b.product? offer with
      | none => (.noProduct, b)
      | some product =>
        match station.acceptReturn product with
        | (.ok (), after) => (.accepted, (b.remove offer).setStation number after)
        | (.error error, after) => (.failed error, (b.remove offer).setStation number after)
  | .look offer =>
    match b.product? offer with
    | none => (.noProduct, b)
    | some product => (.seen product, b)
  | .start number => b.onStation number fun station => (.nothing, b.setStation number station.start)
  | .stop number => b.onStation number fun station => (.nothing, b.setStation number station.stop)
  | .counters number => b.onStation number fun station => (.counters station, b)
  | .describe number => b.onStation number fun station => (.text station.describe, b)

def run (b : StationBench) : List StationStep → List StationAnswer
  | [] => []
  | step :: rest =>
    let (answer, next) := b.takeStep step
    answer :: next.run rest

end StationBench

end Kitchen.Bench
