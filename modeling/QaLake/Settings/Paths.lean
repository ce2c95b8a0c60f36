namespace QaLake

structure BaseDirectories where
  home : Option String
  config : Option String
  data : Option String
  state : Option String
  deriving DecidableEq, Repr

namespace BaseDirectories

def join (parent child : String) : String :=
  if parent.isEmpty || parent.toList.getLast? == some '/' then parent ++ child
  else parent ++ "/" ++ child

def programName : String := "testrail-lake"

variable (dirs : BaseDirectories)

def baseOr (named : Option String) (fallback : String) : String :=
  named.getD (join (dirs.home.getD ".") fallback)

def configFile : String :=
  join (join (dirs.baseOr dirs.config ".config") programName) "config.toml"

def dataDirectory : String :=
  join (dirs.baseOr dirs.data ".local/share") programName

def stateDirectory : String :=
  join (dirs.baseOr dirs.state ".local/state") programName

def databaseFile : String :=
  join dirs.dataDirectory "data.db"

def logFile : String :=
  join dirs.stateDirectory "testrail-lake.log"

end BaseDirectories

end QaLake
