import PushKeeper.Shell.Tools

namespace PushKeeper.Shell.Image

def directories : List String :=
  ["/bin", "/dev", "/etc", "/home", "/proc", "/root", "/sbin", "/tmp", "/usr/bin", "/usr/local/bin",
    "/usr/local/sbin", "/usr/sbin", "/var/tmp"]

def texts : List (String × String) :=
  [("/dev/null", ""), ("/dev/zero", ""), ("/dev/full", ""),
    ("/etc/passwd", "root:x:0:0:root:/root:/bin/sh\nnobody:x:65534:65534:nobody:/nonexistent:/bin/sh\n"),
    ("/etc/group", "root:x:0:\nnogroup:x:65534:\n")]

def programs : List String := Program.shells ++ Tools.all.map (·.1)

def programFile (name : String) : ByteArray := packed (Program.mark ++ bytesOf name)

def install (tree : Files.Tree) (path name : String) : Files.Tree :=
  let added := do
    let tree ← tree.write path (programFile name)
    let (_, id, _, tree) ← tree.openFile path
    return tree.setRunnable id true
  added.toOption.getD tree

def furnish (tree : Files.Tree) : Files.Tree :=
  let made := directories.foldl (fun t path => (t.makeDirectories path).toOption.getD t) tree
  let filled := texts.foldl (fun t (path, text) => (t.write path text.toUTF8).toOption.getD t) made
  programs.foldl (fun t name => install (install t ("/usr/bin/" ++ name) name) ("/bin/" ++ name) name)
    filled

end PushKeeper.Shell.Image
