import Jos.Kern.Mail
import Jos.Kern.SysSound
import Jos.Smp.Holding
import Jos.Root.Accounting
import Jos.Kern.EnvTable
import Jos.Root.Send
import Jos.Kern.PortIo
import Jos.Root.Mail
import Jos.Kern.PageInit
import Jos.User.Shell
import Jos.Kern.Cputs
import Jos.Kern.Mmio
import Jos.Root.RegionExact
import Jos.User.SpawnFails
import Jos.Root.Shell
import Jos.User.Args
import Jos.Kern.Console
import Jos.User.Numerals
import Jos.Root.Cal
import Jos.Kern.FreeList
import Jos.Root.UserStabs
import Jos.User.Lineage
import Jos.User.Primes
import Jos.Fs.Fileids
