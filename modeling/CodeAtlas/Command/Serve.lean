import CodeAtlas.Command.Report
import CodeAtlas.Server.Offer

/-!
# The command that starts the server
-/

namespace CodeAtlas.Command.Serve

def command : CommandSpec where
  program := "server.py"
  description := "Code Search MCP Server"
  operands := []
  options := [.helpOption,
    ⟨["--transport"], .value (.oneOf ["stdio", "sse", "http"]),
      "Transport protocol to use (default: stdio)"⟩,
    ⟨["--host"], .value .text, "Host for HTTP transport (default: localhost)"⟩,
    ⟨["--port"], .value .whole, "Port for HTTP transport (default: 8000)"⟩]

def startLog (transport host number : Value) : List LogEntry :=
  if Server.listens transport then
    [⟨"mcp_server.code_search_mcp", .info,
      "Starting HTTP server on " ++ host.display ++ ":" ++ number.display⟩]
  else []

def body (given : Given) : Act Report :=
  let transport := Server.transportFor ((given.value? "--transport").getD (.text "stdio"))
  let host := (given.value? "--host").getD (.text "localhost")
  let number := (given.value? "--port").getD (.int 8000)
  return { Report.logged 0 (startLog transport host number) with served := [transport] }

def run (words : List String) : Act Report :=
  runWith command words body

end CodeAtlas.Command.Serve
