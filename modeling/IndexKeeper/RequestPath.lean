set_option autoImplicit false

namespace IndexKeeper.RequestPath

def sharedFiles : List String := [
  "/index.html", "/documentoutline.html", "/favicon.ico", "/header.html", "/overview.html",
  "/styles.css", "/scripts.js"]

def sharedFolders : List String := ["content", "lib", "api"]

def isShared (path : String) : Bool :=
  let rest := path.toList.drop 1
  let first := rest.takeWhile (· ≠ '/')
  if first ≠ [] ∧ first.length < rest.length then sharedFolders.contains (String.ofList first)
  else sharedFiles.contains path

def resolve (index : Option String) (path : String) : Option String :=
  if path.toList.head? ≠ some '/' then some path
  else if path = "/" then some "/index.html"
  else if isShared path then some path
  else index.map fun name => "/" ++ name ++ path

end IndexKeeper.RequestPath
