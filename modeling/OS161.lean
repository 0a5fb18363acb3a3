import OS161.Proc.Resources
import OS161.Thread.StatsLock
import OS161.Thread.ExitLocks
import OS161.Proc.Syscall
import OS161.Proc.FileIo
import OS161.Vm.KmallocSafe
import OS161.Vfs.BigLock
import OS161.Thread.CondVar
import OS161.Proc.ForkFailure
import OS161.Lib.Array
import OS161.Lib.Bswap
import OS161.Sfs.Files
import OS161.Startup.Menu
import OS161.Thread.Ipi
import OS161.Vfs.KnownDevs
import OS161.Vfs.CurDir
import OS161.User.MallocRuns
import OS161.User.SfsckMap
import OS161.Thread.Scheduler
import OS161.Vm.Dirty
import OS161.Vm.Statistics
import OS161.Thread.Spl
import OS161.Synchprobs.CatMouseStuck
import OS161.Exec.LoadImage
import OS161.Lib.Uiomove
import OS161.Dev.Console
import OS161.Dev.LhdRequests
import OS161.Sfs.Mount
import OS161.Vfs.Balance
import OS161.Lib.Printf
