namespace QaLake.CommandLine

def programName : String := "testrail-lake-sync"

def programVersion : String := "0.1.0"

def versionText : String :=
  programName ++ " " ++ programVersion ++ "\n"

def helpText : String :=
  "Collect, extract and convert a TestRail project into the QA data lake\n" ++
  "\n" ++
  "Usage: " ++ programName ++ " [OPTIONS]\n" ++
  "\n" ++
  "Options:\n" ++
  "      --connection <CONNECTION>  Connection id from config.toml\n" ++
  "      --project <PROJECT>        TestRail project id\n" ++
  "      --scope-config <FILE>      JSON file with the scope config (overrides the stored one)\n" ++
  "      --created-after <RFC3339>  Only collect cases and runs created after this RFC 3339 " ++
    "instant\n" ++
  "      --subtask <NAME>           Run only the named subtask(s); repeatable\n" ++
  "      --skip-parse-errors        Log and skip raw records that fail to parse instead of " ++
    "aborting\n" ++
  "      --list                     List subtasks in run order and exit\n" ++
  "  -v, --verbose...               Verbose output (-v per-subtask details)\n" ++
  "  -h, --help                     Print help\n" ++
  "  -V, --version                  Print version\n"

def misuseText : String :=
  "error: this is not how the program is used\n" ++
  "\n" ++
  "For more information, try '--help'.\n"

end QaLake.CommandLine
