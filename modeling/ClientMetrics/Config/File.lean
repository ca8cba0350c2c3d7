import ClientMetrics.Config.Folder
import ClientMetrics.Config.Yaml

/-!
# The file of a folder

The settings of a folder are in one file, which need not be there: without it the defaults count.
Saving makes the folder, and writes one line end more than the text of the settings has.
-/

namespace ClientMetrics

/-- The name of the file. -/
def configFileName : String := "config.yml"

/-- Settings with the folder that they belong to. -/
structure LoadedSettings where
  settings : Settings
  /-- The path of the folder. -/
  path : String
  deriving DecidableEq, Repr

namespace FileTree

/-- What is noted when there is no file. -/
def fileNotFound (file : String) : Log.Event :=
  { severity := .debug, target := "csm_config::config"
    message := "config file not found, using defaults", fields := [("path", .plain file)] }

/-- The settings of a folder, and what is noted meanwhile. -/
def loadSettings (t : FileTree) (folder : String) :
    Except ConfigError LoadedSettings × List Log.Event :=
  let path := joinPath t.root folder
  let file := joinPath path configFileName
  match t.readText file with
  | .ok text =>
    match Settings.ofYaml? text with
    | some settings => (.ok { settings, path }, [])
    | none => (.error (.badYaml (some file)), [])
  | .error .missing => (.ok { settings := {}, path }, [fileNotFound file])
  | .error fault => (.error (.couldNotOpen file fault.message), [])

/-- Makes a folder unless something is there. -/
def ensureFolder (t : FileTree) (folder : String) : Except FileFault FileTree :=
  if t.exists? folder then .ok t else t.makeFolders folder

/-- Saves settings in a folder. What has been made before an error stays. -/
def saveSettings (t : FileTree) (folder : String) (s : Settings) :
    FileTree × Option ConfigError :=
  match t.ensureFolder folder with
  | .error fault => (t, some (.couldNotOpen folder fault.message))
  | .ok t =>
    let file := joinPath folder configFileName
    match t.write file (s.toYaml ++ "\n").toUTF8 with
    | .error fault => (t, some (.couldNotWrite file fault.message))
    | .ok t => (t, none)

end FileTree

end ClientMetrics
