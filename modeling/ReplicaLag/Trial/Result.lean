import ReplicaLag.Inspect
import ReplicaLag.Trial.Turn

/-!
What a trial found: counts, the last operation, and every answer that differs from the reference
log.
-/

namespace ReplicaLag

/-- A difference between the cluster and the reference log. -/
inductive Finding where
  | responseId (got last : UInt64)
  | rejection (wanted : FaultKind) (got : Body)
  | acceptance (got : Fault)
  | wait (acks : UInt32) (node : String) (wanted got : Millis)
  | readWait (got : Millis)
  | read (key node : String) (wanted : Option Columns) (got : Option Version)
  | scan (key node : String) (wanted : List (String × Columns))
      (got : Option (List (String × Columns)))

namespace Finding

open Inspect

def row (r : String × Columns) : String :=
  "(" ++ Inspect.text r.1 ++ ", " ++ r.2.inspect ++ ")"

def rows (rs : List (String × Columns)) : String := Inspect.list (rs.map row)

def text : Finding → String
  | responseId got last =>
    "response id " ++ toString got.toNat ++ " not above previous " ++ toString last.toNat
  | rejection wanted got => "expected " ++ wanted.text ++ " rejection, got " ++ got.inspect
  | acceptance got => "write should have been accepted, got " ++ got.text
  | wait acks node wanted got =>
    "ack_count " ++ toString acks.toNat ++ " on " ++ node ++ ": expected wait " ++
      toString wanted.toNat ++ ", got " ++ toString got.toNat
  | readWait got => "read waited " ++ toString got.toNat ++ "ms"
  | read key node wanted got =>
    "read of " ++ key ++ " on " ++ node ++ ": expected " ++ option Columns.inspect wanted ++
      ", got " ++ option Version.inspect got
  | scan key node wanted got =>
    "scan from " ++ key ++ " on " ++ node ++ ": expected " ++ rows wanted ++ ", got " ++
      option rows got

end Finding

namespace TrialOp

def kindName : TrialOp → String
  | write .insert .. => "insert"
  | write .update .. => "update"
  | write .delete .. => "delete"
  | read .. => "read"
  | scan .. => "scan"

def node : TrialOp → String
  | write _ n _ _ _ | read n _ | scan n _ _ _ => n

def key : TrialOp → String
  | write _ _ k _ _ | read _ k | scan _ k _ _ => k

def inspect (op : TrialOp) : String :=
  let place := [("node", Inspect.text op.node), ("key", Inspect.text op.key)]
  match op with
  | write .insert .. => Inspect.record "Insert" place
  | write .update .. => Inspect.record "Update" place
  | write .delete .. => Inspect.record "Delete" place
  | read .. => Inspect.record "Read" place
  | scan _ _ count ascending =>
    Inspect.record "Scan" (place ++ [("count", toString count.toNat),
      ("ascending", Inspect.bool ascending)])

end TrialOp

structure TrialResult where
  seed : UInt64
  operations : UInt64 := 0
  accepted : UInt64 := 0
  rejected : UInt64 := 0
  reads : UInt64 := 0
  scans : UInt64 := 0
  /-- Reads that saw something else than the newest write. -/
  stale : UInt64 := 0
  violations : List String := []
  lastOp : Option TrialOp := none

namespace TrialResult

def isSuccess (r : TrialResult) : Bool := r.violations.isEmpty

/-- The result with one more violation, in the last operation. -/
def report (r : TrialResult) (f : Finding) : TrialResult :=
  { r with violations := r.violations ++ ["Op #" ++ toString r.operations.toNat ++ ": " ++
      Inspect.option TrialOp.inspect r.lastOp ++ " - " ++ f.text] }

def summary (r : TrialResult) : String :=
  "Seed " ++ toString r.seed.toNat ++ ": " ++ toString r.operations.toNat ++
    " ops (writes ok:" ++ toString r.accepted.toNat ++
    " rejected:" ++ toString r.rejected.toNat ++ ", reads:" ++ toString r.reads.toNat ++
    " stale:" ++ toString r.stale.toNat ++ ", scans:" ++ toString r.scans.toNat ++ "), " ++
    toString r.violations.length ++ " violations"

/-- A line for a failed trial and one for each of its violations. -/
def failure (r : TrialResult) : String :=
  "  " ++ r.summary ++ "\n" ++ String.join (r.violations.map fun v => "    - " ++ v ++ "\n")

def total (count : TrialResult → UInt64) (rs : List TrialResult) : UInt64 :=
  rs.foldl (fun n r => n + count r) 0

def summarize (rs : List TrialResult) : String :=
  let failed := rs.filter (!·.isSuccess)
  "Query DST Summary\n=================\nSeeds: " ++ toString rs.length ++ " total, " ++
    toString (rs.length - failed.length) ++ " passed, " ++ toString failed.length ++
    " failed\nTotal operations: " ++ toString (total operations rs).toNat ++ " (" ++
    toString (total stale rs).toNat ++ " stale reads)\n" ++
    (if failed.isEmpty then ""
      else "\nFailed seeds:\n" ++ String.join (failed.map failure))

end TrialResult

end ReplicaLag
