import WordMachine.Demo

def main : IO UInt32 := do
  let report := WordMachine.Demo.report
  for line in report.lines do
    IO.println line
  if let some e := report.failure then
    IO.eprintln ("error: " ++ e.message)
  return report.exitCode.toUInt32
