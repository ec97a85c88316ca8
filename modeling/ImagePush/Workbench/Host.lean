import ImagePush.Program
import ImagePush.Registry.Exchange
import ImagePush.Workbench.Basic

/-!
# The program on a workbench

A workbench with a console on which whole programs can be run. No time passes on a workbench.
-/

namespace ImagePush.Workbench

/-- A workbench with what was printed and the events that were kept so far. -/
structure Desk where
  bench : Workbench
  out : String := ""
  err : String := ""
  events : History := []

namespace Desk

/-- Runs a step on the workbench of a desk. -/
def onBench {α : Type} (step : StateM Workbench α) : StateM Desk α := fun d =>
  let (a, bench) := step d.bench
  (a, { d with bench })

/-- Reads a file of a workbench. -/
def readFile (path : String) : StateM Desk (Except IoError (List UInt8)) := fun d =>
  (d.bench.files.read path, d)

/-- Writes a file of a workbench. -/
def writeFile (path : String) (content : List UInt8) : StateM Desk (Except IoError Unit) := fun d =>
  match d.bench.files.write path content with
  | .ok files => (.ok (), { d with bench := { d.bench with files } })
  | .error e => (.error e, d)

/-- Prints to standard output. -/
def print (text : String) : StateM Desk Unit :=
  modify fun d => { d with out := d.out ++ text }

/-- Prints to standard error. -/
def printError (text : String) : StateM Desk Unit :=
  modify fun d => { d with err := d.err ++ text }

/-- Keeps an event. -/
def keep (e : Event) : StateM Desk Unit :=
  modify fun d => { d with events := d.events ++ [e] }

/-- The host of a program on a workbench, where `exchange` stands for the cloud. -/
def host (environment : Environment)
    (exchange : CloudAccess → String → Except Registry.Fault Registry.Credentials) :
    Host (StateM Desk) where
  environment := environment
  readFile := readFile
  writeFile := writeFile
  print := print
  printError := printError
  start i := onBench (Workbench.start i)
  exchange access server := return exchange access server
  makeScratch := onBench Workbench.makeScratch
  dropScratch dir := onBench (Workbench.dropScratch dir)
  elapsed := return 0

end Desk

end ImagePush.Workbench
